import BranchSim.Proofs.Perceptron.Dot
import BranchSim.Proofs.Perceptron.Layout
import BranchSim.Proofs.Perceptron.Row

namespace BranchSim

theorem PerceptronConfig.weightBound_mono {c : PerceptronConfig} {bits : UInt32}
    (wider : c.weightBits ≤ bits) : c.weightBound ≤ { c with weightBits := bits }.weightBound := by
  have more : c.weightBits.toNat - 1 ≤ bits.toNat - 1 :=
    Nat.sub_le_sub_right (UInt32.le_iff_toNat_le.1 wider) 1
  rw [weightBound_eq, weightBound_eq]
  exact Nat.pow_le_pow_right Nat.two_pos more

namespace Perceptron

variable {c : PerceptronConfig} {p : Perceptron} {bits : UInt32}

def widen (bits : UInt32) (p : Perceptron) : Perceptron :=
  { p with config := { p.config with weightBits := bits } }

def Reaches (p : Perceptron) (r k : Nat) : Prop :=
  ∀ v ∈ (p.weights? r).getD [], v.natAbs ≤ k

theorem reaches_fresh (c : PerceptronConfig) (r k : Nat) : (fresh c).Reaches r k := by
  intro v member
  rw [weights?, fresh, Array.getElem?_replicate] at member
  split at member
  · obtain ⟨-, rfl⟩ := List.mem_replicate.1 member
    exact Nat.zero_le _
  · exact absurd member List.not_mem_nil

theorem natAbs_le_of_mem_adjust (p : Perceptron) (taken : Bool) {row : List Int} {k : Nat}
    (reach : ∀ v ∈ row, v.natAbs ≤ k) :
    ∀ v ∈ adjust p.config p.inputs taken row, v.natAbs ≤ k + 1 := by
  intro v member
  obtain ⟨lower, upper⟩ := zero_mem_range p.config
  rw [adjust_eq_map_clamp] at member
  obtain ⟨w, inside, rfl⟩ := List.mem_map.1 member
  exact (natAbs_clamp_le lower upper w).trans
    (natAbs_le_of_mem_advance (natAbs_sign taken) p.inputs_units reach w inside)

theorem Reaches.train {r k : Nat} (reaches : p.Reaches r k) (e : Event) :
    (p.train e).Reaches r (k + if p.index e.pc = r ∧ p.adjusts e then 1 else 0) := by
  unfold Reaches at reaches ⊢
  rw [weights?_train]
  by_cases active : p.index e.pc = r ∧ p.adjusts e
  · rw [if_pos active, if_pos active]
    cases at_r : p.weights? r with
    | none => simp
    | some row =>
        rw [at_r] at reaches
        exact natAbs_le_of_mem_adjust p e.taken reaches
  · rw [if_neg active, if_neg active]
    exact reaches

theorem reaches_trainAll (c : PerceptronConfig) (r : Nat) (events : List Event) :
    ((fresh c).trainAll events).Reaches r ((fresh c).adjustments r events) := by
  induction events using List.reverseRecOn with
  | nil => exact reaches_fresh c r _
  | append_singleton es e ih =>
      rw [trainAll_concat, adjustments_concat]
      exact ih.train e

theorem train_widen {e : Event} (wider : p.config.weightBits ≤ bits)
    (room : p.adjusts e → ∀ v ∈ advance (sign e.taken) (p.row e.pc) p.inputs,
      v.natAbs < p.config.weightBound) : (p.train e).widen bits = (p.widen bits).train e := by
  have same (active : p.adjusts e) : adjust p.config p.inputs e.taken (p.row e.pc) =
      adjust { p.config with weightBits := bits } p.inputs e.taken (p.row e.pc) := by
    have reach := room active
    have wide := PerceptronConfig.weightBound_mono wider
    rw [adjust_of_reach _ _ _ _ reach,
      adjust_of_reach _ _ _ _ fun v member => (reach v member).trans_le wide]
  have rows : (p.train e).rows = ((p.widen bits).train e).rows := rows_train same
  calc (p.train e).widen bits
      = ⟨{ p.config with weightBits := bits }, (p.train e).history, (p.train e).rows⟩ := rfl
    _ = (p.widen bits).train e := by
        rw [rows]
        rfl

theorem trainAll_widen (wider : c.weightBits ≤ bits) {events : List Event}
    (few : ∀ r, (fresh c).adjustments r events < c.weightBound) :
    ((fresh c).trainAll events).widen bits = ((fresh c).widen bits).trainAll events := by
  induction events using List.reverseRecOn with
  | nil => rfl
  | append_singleton es e ih =>
      simp only [adjustments_concat] at few
      have config : ((fresh c).trainAll es).config = c := config_trainAll ..
      rw [trainAll_concat, trainAll_concat, ← ih fun r => Nat.lt_of_add_right_lt (few r)]
      apply train_widen
      · rw [config]
        exact wider
      · intro active v member
        -- Before this change the row is one step further from its bounds.
        have count := few (((fresh c).trainAll es).index e.pc)
        rw [if_pos ⟨rfl, active⟩] at count
        rw [config]
        exact (natAbs_le_of_mem_advance (natAbs_sign e.taken) (inputs_units _)
          (reaches_trainAll c _ es) v member).trans_lt count

theorem adjustments_fresh_of_le (valid : c.validate = .ok ()) (events : List Event) {r : Nat}
    (outside : c.numPerceptrons.toNat ≤ r) : (fresh c).adjustments r events = 0 := by
  obtain ⟨power, -⟩ := PerceptronConfig.validate_eq_ok_iff.1 valid
  have never : (fresh c).trainings r events = 0 := by
    rw [trainings, List.countP_eq_zero]
    intro e _
    have bound := (kept_fresh c).index_lt power e.pc
    rw [decide_eq_true_iff]
    omega
  exact Nat.eq_zero_of_le_zero (never ▸ adjustments_le_trainings ..)

/-- As long as no row has changed more often than its weights have room above zero, weights of any
greater width would be the same. A row changes at most as often as it is trained. -/
theorem width_invisible_until_saturation (c : PerceptronConfig) (bits : UInt32)
    (valid : c.validate = .ok ()) (valid' : { c with weightBits := bits }.validate = .ok ())
    (wider : c.weightBits ≤ bits) :
    ∃ p q, ofConfig c = .ok p ∧ ofConfig { c with weightBits := bits } = .ok q ∧
      ∀ events : List Event,
        (∀ r, p.adjustments r events ≤ p.trainings r events) ∧
        ((∀ r < c.numPerceptrons.toNat,
            p.adjustments r events ≤ 2 ^ (c.weightBits.toNat - 1) - 1) →
          ∀ k, let narrow := p.trainAll (events.take k)
            let wide := q.trainAll (events.take k)
            narrow.rows = wide.rows ∧ narrow.history = wide.history ∧
              ∀ pc, narrow.output pc = wide.output pc) := by
  refine ⟨fresh c, fresh { c with weightBits := bits }, ofConfig_of_validate valid,
    ofConfig_of_validate valid', ?_⟩
  intro events
  refine ⟨fun r => adjustments_le_trainings _ r events, ?_⟩
  intro seldom k narrow wide
  have few (r : Nat) : (fresh c).adjustments r (events.take k) < c.weightBound := by
    have positive := Nat.two_pow_pos (c.weightBits.toNat - 1)
    have part := (fresh c).adjustments_take_le r k events
    rw [c.weightBound_eq]
    by_cases row : r < c.numPerceptrons.toNat
    · have whole := seldom r row
      omega
    · have never := adjustments_fresh_of_le valid events (Nat.not_lt.1 row)
      omega
  have same : narrow.widen bits = wide := trainAll_widen wider few
  rw [← same]
  exact ⟨rfl, rfl, fun _ => rfl⟩

theorem width_invisible_until_saturation_at_bound :
    let c : PerceptronConfig := ⟨2, 1, 3, 15⟩
    let events : List Event := [⟨0, true⟩, ⟨4, false⟩, ⟨8, true⟩, ⟨16, true⟩]
    let wide := fresh { c with weightBits := 32 }
    c.validate = .ok () ∧ { c with weightBits := 32 }.validate = .ok () ∧ c.weightBits ≤ 32 ∧
      (∀ r < c.numPerceptrons.toNat,
        (fresh c).adjustments r events ≤ 2 ^ (c.weightBits.toNat - 1) - 1) ∧
      (wide.trainAll (events.take 4)).rows = #[[3, -1], [-1, -1]] := by
  intro c events wide
  have valid : c.validate = .ok () := PerceptronConfig.validate_eq_ok_iff.2 ⟨⟨1, rfl⟩, by decide⟩
  have valid' : { c with weightBits := 32 }.validate = .ok () :=
    PerceptronConfig.validate_eq_ok_iff.2 ⟨⟨1, rfl⟩, by decide⟩
  have wider : c.weightBits ≤ 32 := by decide
  have seldom : ∀ r < c.numPerceptrons.toNat,
      (fresh c).adjustments r events ≤ 2 ^ (c.weightBits.toNat - 1) - 1 := by
    decide
  obtain ⟨p, q, built, built', same⟩ := width_invisible_until_saturation c 32 valid valid' wider
  obtain rfl : fresh c = p := Except.ok.inj ((ofConfig_of_validate valid).symm.trans built)
  obtain rfl : wide = q := Except.ok.inj ((ofConfig_of_validate valid').symm.trans built')
  obtain ⟨rows, -, -⟩ := (same events).2 seldom 4
  refine ⟨valid, valid', wider, seldom, rows.symm.trans ?_⟩
  decide +kernel

-- One training more, and the narrower bias has stayed where it was.
example :
    let events : List Event := List.replicate 4 ⟨0, true⟩
    ((fresh ⟨2, 1, 3, 15⟩).trainAll events).rows ≠ ((fresh ⟨2, 1, 4, 15⟩).trainAll events).rows := by
  decide +kernel

end Perceptron

end BranchSim
