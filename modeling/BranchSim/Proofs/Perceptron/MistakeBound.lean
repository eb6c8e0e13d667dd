import BranchSim.Proofs.Perceptron.Dot
import BranchSim.Proofs.Perceptron.Row
import Mathlib.Tactic.Linarith

/-!
# The mistake bound

If some weights separate the branches of a row with a margin, the row changes a bounded number of
times, however long the stream is.

* `Progress`: each change adds the margin to the product with the separating weights, while the
  squared norm grows by at most a constant. The Cauchy–Schwarz inequality bounds the changes.
* The same bound keeps every weight in range, so that none of the changes has been cut off.
-/

namespace BranchSim

/-! ## Progress of a row -/

/-- What `k` changes of a row that was zero have made of it, if each has gained at least `γ` against
the weights `u` and none has added more than `β` to the squared norm. -/
structure Progress (u : List Int) (γ β : Int) (k : Nat) (w : List Int) : Prop where
  aligned : γ * k ≤ dot u w
  small : dot w w ≤ β * k
  reach : ∀ v ∈ w, v.natAbs ≤ k

namespace Progress

variable {u w x : List Int} {γ β t : Int} {k : Nat}

theorem zero (u : List Int) (γ β : Int) (n : Nat) :
    Progress u γ β 0 (List.replicate n 0) where
  aligned := by simp
  small := by simp
  reach := by
    intro v member
    obtain ⟨-, rfl⟩ := List.mem_replicate.1 member
    exact le_rfl

theorem advance (progress : Progress u γ β k w) (same : w.length = x.length)
    (unit : t.natAbs = 1) (units : ∀ v ∈ x, v = 1 ∨ v = -1) (margin : γ ≤ t * dot u x)
    (growth : 2 * (t * dot w x) + dot x x ≤ β) : Progress u γ β (k + 1) (advance t w x) where
  aligned := by
    rw [dot_advance t u same]
    push_cast
    linarith [progress.aligned]
  small := by
    have square : t ^ 2 = 1 := by
      rw [← Int.natAbs_sq, unit]
      rfl
    rw [dot_advance_self t same, square]
    push_cast
    linarith [progress.small]
  reach := natAbs_le_of_mem_advance unit units progress.reach

theorem bounded (progress : Progress u γ β k w) (positive : 1 ≤ γ) (nonneg : 0 ≤ β) :
    k * γ ^ 2 ≤ dot u u * β := by
  cases k with
  | zero =>
      rw [Nat.cast_zero, zero_mul]
      exact mul_nonneg (dot_self_nonneg u) nonneg
  | succ k =>
      have count : (0 : ℤ) < (k + 1 : Nat) := by positivity
      have gained : 0 ≤ γ * (k + 1 : Nat) := by positivity
      have chain : (k + 1 : Nat) * ((k + 1 : Nat) * γ ^ 2) ≤ (k + 1 : Nat) * (dot u u * β) :=
        calc (k + 1 : Nat) * ((k + 1 : Nat) * γ ^ 2)
            = (γ * (k + 1 : Nat)) ^ 2 := by ring
          _ ≤ dot u w ^ 2 := pow_le_pow_left₀ gained progress.aligned 2
          _ ≤ dot u u * dot w w := dot_sq_le u w
          _ ≤ dot u u * (β * (k + 1 : Nat)) :=
              mul_le_mul_of_nonneg_left progress.small (dot_self_nonneg u)
          _ = (k + 1 : Nat) * (dot u u * β) := by ring
      exact le_of_mul_le_mul_left chain count

end Progress

namespace Perceptron

theorem sign_mul_output_le {p : Perceptron} {e : Event} (active : p.adjusts e) :
    sign e.taken * p.output e.pc ≤ p.config.trainingThreshold.toNat := by
  have either : p.predict e.pc ≠ e.taken ∨
      (p.output e.pc).natAbs ≤ p.config.trainingThreshold.toNat := by
    simpa [adjusts] using active
  rw [predict] at either
  cases taken : e.taken with
  | true =>
      rw [show sign true = 1 from rfl, one_mul]
      simp only [taken, ne_eq, decide_eq_true_eq] at either
      omega
  | false =>
      rw [show sign false = -1 from rfl]
      simp only [taken, ne_eq, decide_eq_false_iff_not, not_not] at either
      omega

/-! ## The run -/

def growth (c : PerceptronConfig) : Int :=
  2 * c.trainingThreshold.toNat + c.historyLength.toNat + 1

variable {u w : List Int} {γ : Int} {k r : Nat} {c : PerceptronConfig}

theorem progress_train {p : Perceptron} (shaped : p.Shaped) (at_r : p.weights? r = some w)
    (progress : Progress u γ (growth p.config) k w) (positive : 1 ≤ γ)
    (room : dot u u * growth p.config < γ ^ 2 * p.config.weightBound) (e : Event)
    (margin : p.index e.pc = r → γ ≤ sign e.taken * dot u p.inputs) :
    ∃ w', (p.train e).weights? r = some w' ∧
      Progress u γ (growth p.config)
        (k + if p.index e.pc = r ∧ p.adjusts e then 1 else 0) w' := by
  rw [weights?_train]
  by_cases active : p.index e.pc = r ∧ p.adjusts e
  · rw [if_pos active, if_pos active, at_r, Option.map_some]
    have length : w.length = p.inputs.length := by
      rw [length_inputs, shaped.length_of_weights? at_r]
    have output : p.output e.pc = dot w p.inputs := by
      rw [Perceptron.output, row, active.1, at_r, Option.getD_some]
    have small := sign_mul_output_le active.2
    have units := dot_self_of_units p.inputs_units
    have next := progress.advance length (natAbs_sign e.taken) p.inputs_units (margin active.1) (by
      rw [← output, units, length_inputs, growth]
      push_cast
      linarith)
    -- `next` is about the row before it is clamped, and it leaves nothing to clamp.
    have bounded := next.bounded positive (by rw [growth]; positivity)
    have below : k + 1 < p.config.weightBound := by
      have square : (0 : ℤ) < γ ^ 2 := by positivity
      have strict := bounded.trans_lt room
      rw [mul_comm (γ ^ 2)] at strict
      exact_mod_cast lt_of_mul_lt_mul_right strict square.le
    refine ⟨_, rfl, ?_⟩
    rw [adjust_of_reach p.config p.inputs w e.taken
      fun v member => (next.reach v member).trans_lt below]
    exact next
  · rw [if_neg active, if_neg active, at_r]
    exact ⟨w, rfl, progress⟩

theorem progress_trainAll (row : r < c.numPerceptrons.toNat) (positive : 1 ≤ γ)
    (room : dot u u * growth c < γ ^ 2 * c.weightBound) (events : List Event)
    (margin : ∀ x ∈ trail train (fresh c) events,
      x.1.index x.2.pc = r → γ ≤ sign x.2.taken * dot u x.1.inputs) :
    ∃ w, ((fresh c).trainAll events).weights? r = some w ∧
      Progress u γ (growth c) ((fresh c).adjustments r events) w := by
  induction events using List.reverseRecOn with
  | nil => exact ⟨_, weights?_fresh c row, .zero ..⟩
  | append_singleton es e ih =>
      have config : ((fresh c).trainAll es).config = c := config_trainAll ..
      rw [trail_append] at margin
      obtain ⟨w, at_r, progress⟩ := ih fun x member => margin x (List.mem_append_left _ member)
      rw [trainAll_concat, adjustments_concat]
      rw [← config] at progress room
      have last := progress_train ((shaped_fresh c).trainAll es) at_r progress positive room e
        (margin (_, e) (List.mem_append_right _ (List.mem_singleton_self _)))
      rw [config] at last
      exact last

/-! ## The statement -/

theorem dot_inputs (u : Nat → Int) (p : Perceptron) :
    dot ((List.range (p.config.historyLength.toNat + 1)).map u) p.inputs =
      u 0 + ∑ i ∈ Finset.range p.config.historyLength.toNat,
        u (i + 1) * sign (p.history.outcome i) := by
  rw [List.range_succ_eq_map, List.map_cons, List.map_map, inputs]
  exact dot_signs ..

/-- The changes of a row, and with them its wrong predictions, are bounded whatever the length of
the stream, if weights `u` separate its branches with margin `γ` and the range of the weights leaves
room for as many changes. -/
theorem mistake_bound (c : PerceptronConfig) (valid : c.validate = .ok ()) :
    ∃ p, ofConfig c = .ok p ∧
      ∀ (events : List Event) (r : Nat) (u : Nat → Int) (γ : Int),
        let h := c.historyLength.toNat
        let limit := (∑ i ∈ Finset.range (h + 1), u i ^ 2) * (2 * c.trainingThreshold.toNat + h + 1)
        r < c.numPerceptrons.toNat → 1 ≤ γ →
        (∀ x ∈ trail train p events, x.1.index x.2.pc = r →
          γ ≤ sign x.2.taken *
            (u 0 + ∑ i ∈ Finset.range h, u (i + 1) * sign (x.1.history.outcome i))) →
        limit < γ ^ 2 * 2 ^ (c.weightBits.toNat - 1) →
        p.adjustments r events * γ ^ 2 ≤ limit ∧ p.mistakes r events * γ ^ 2 ≤ limit := by
  refine ⟨fresh c, by rw [ofConfig_eq, valid]; rfl, ?_⟩
  intro events r u γ h limit row positive margin room
  have weights : (c.weightBound : ℤ) = 2 ^ (c.weightBits.toNat - 1) := by
    rw [PerceptronConfig.weightBound, Nat.one_shiftLeft]
    push_cast
    rfl
  have norm : dot ((List.range (h + 1)).map u) ((List.range (h + 1)).map u) * growth c = limit := by
    rw [dot_map_range]
    simp only [← pow_two]
    rfl
  rw [← weights, ← norm] at room
  have separated : ∀ x ∈ trail train (fresh c) events, x.1.index x.2.pc = r →
      γ ≤ sign x.2.taken * dot ((List.range (h + 1)).map u) x.1.inputs := by
    intro x member here
    have product := dot_inputs u x.1
    rw [config_of_mem_trail member, fresh] at product
    rw [product]
    exact margin x member here
  obtain ⟨w, -, progress⟩ := progress_trainAll row positive room events separated
  have adjusted := progress.bounded positive (by rw [growth]; positivity)
  rw [norm] at adjusted
  refine ⟨adjusted, le_trans ?_ adjusted⟩
  have fewer : ((fresh c).mistakes r events : ℤ) ≤ (fresh c).adjustments r events := by
    exact_mod_cast mistakes_le_adjustments (fresh c) r events
  exact mul_le_mul_of_nonneg_right fewer (sq_nonneg γ)

theorem mistake_bound_of_repeated_outcome :
    let c : PerceptronConfig := ⟨2, 2, 8, 1⟩
    let events : List Event := [⟨0, false⟩, ⟨4, false⟩, ⟨0, true⟩, ⟨4, true⟩, ⟨0, false⟩, ⟨4, false⟩]
    let u : Nat → Int := fun i => if i = 1 then 1 else 0
    c.validate = .ok () ∧
      (∀ x ∈ trail train (fresh c) events, x.1.index x.2.pc = 1 →
        1 ≤ sign x.2.taken *
          (u 0 + ∑ i ∈ Finset.range 2, u (i + 1) * sign (x.1.history.outcome i))) ∧
      (fresh c).mistakes 1 events * 1 ^ 2 ≤ (5 : ℤ) := by
  intro c events u
  have valid : c.validate = .ok () := by decide
  have margin : ∀ x ∈ trail train (fresh c) events, x.1.index x.2.pc = 1 →
      1 ≤ sign x.2.taken *
        (u 0 + ∑ i ∈ Finset.range 2, u (i + 1) * sign (x.1.history.outcome i)) := by
    decide
  obtain ⟨p, built, bound⟩ := mistake_bound c valid
  rw [ofConfig_eq, valid] at built
  obtain rfl : fresh c = p := Except.ok.inj built
  have bounded := (bound events 1 u 1 (by decide) le_rfl margin (by decide)).2
  exact ⟨valid, margin, bounded.trans (by decide)⟩

end Perceptron

end BranchSim
