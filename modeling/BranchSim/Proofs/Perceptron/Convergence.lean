import BranchSim.Proofs.Perceptron.Saturation

/-!
# Convergence under repetition

A branch that repeats its outcome first fills the history with it. From then on its inputs stay the
same, so each training that still changes weights brings them nearer to saturation, and the first
that changes none leaves the whole predictor as it is.
-/

namespace BranchSim
open Predictor (Operation)

theorem PerceptronConfig.weightMax_le_weightMin_add {c : PerceptronConfig}
    (bits : 0 < c.weightBits.toNat) :
    c.weightMax ≤ c.weightMin + (2 ^ c.weightBits.toNat - 1 : Nat) := by
  have double : 2 ^ c.weightBits.toNat = 2 * c.weightBound := by
    rw [c.weightBound_eq, ← Nat.pow_succ', Nat.succ_eq_add_one, Nat.sub_add_cancel bits]
  rw [double, weightMax, weightMin]
  omega

theorem PerceptronConfig.one_le_weightMax {c : PerceptronConfig} (bits : 2 ≤ c.weightBits.toNat) :
    1 ≤ c.weightMax := by
  have power : 2 ^ 1 ≤ 2 ^ (c.weightBits.toNat - 1) :=
    Nat.pow_le_pow_right Nat.two_pos (Nat.le_sub_one_of_lt bits)
  rw [← c.weightBound_eq] at power
  rw [weightMax]
  omega

namespace Perceptron

variable {c : PerceptronConfig} {p : Perceptron} {e : Event} {k n : Nat}

theorem Kept.trainAll (kept : Kept c p) (fits : c.historyLength.toNat ≤ History.maxWidth)
    (es : List Event) : Kept c (p.trainAll es) := by
  induction es generalizing p with
  | nil => exact kept
  | cons e es ih => exact ih (kept.train fits e)

structure Settled (p : Perceptron) (e : Event) : Prop where
  fixed : p.train e = p
  right : p.predict e.pc = e.taken

theorem Settled.trainAll (settled : Settled p e) (n : Nat) :
    p.trainAll (List.replicate n e) = p := by
  induction n with
  | zero => rfl
  | succ n ih =>
      have first : p.trainAll (List.replicate (n + 1) e) =
          (p.train e).trainAll (List.replicate n e) := rfl
      rw [first, settled.fixed, ih]

def Steady (p : Perceptron) (taken : Bool) : Prop :=
  p.history.push p.config.historyLength.toNat taken = p.history

theorem Steady.train (steady : p.Steady e.taken) : (p.train e).Steady e.taken := by
  have history : (p.train e).history = p.history := steady
  rw [Steady, history]
  exact steady

theorem Steady.inputs_train (steady : p.Steady e.taken) : (p.train e).inputs = p.inputs := by
  have history : (p.train e).history = p.history := steady
  rw [inputs, inputs, history]
  rfl

theorem Steady.train_eq (steady : p.Steady e.taken)
    (same : p.adjusts e → adjust p.config p.inputs e.taken (p.row e.pc) = p.row e.pc) :
    p.train e = p := by
  have rows : (p.train e).rows = p.rows := by
    rw [rows_train (f := id) same]
    split
    · apply Array.ext_getElem?
      intro r
      simp [Array.getElem?_modify]
    · rfl
  have history : (p.train e).history = p.history := steady
  calc p.train e = ⟨p.config, (p.train e).history, (p.train e).rows⟩ := rfl
    _ = p := by rw [history, rows]

theorem predict_of_not_adjusts (idle : ¬ p.adjusts e) : p.predict e.pc = e.taken := by
  by_contra wrong
  exact idle (by rw [adjusts, bne_iff_ne.2 wrong, Bool.true_or])

/-- A saturated row is never mispredicted, not even the one that is against the taken branch. -/
theorem predict_of_saturated (wide : 1 ≤ p.config.weightMax)
    (full : List.Forall₂ (Within p.config e.taken 0) (p.row e.pc) p.inputs) :
    p.predict e.pc = e.taken := by
  have length : (p.row e.pc).length = p.config.historyLength.toNat + 1 := by
    rw [full.length_eq, length_inputs]
  have total := length_mul_le_of_saturated full
  have positive : 0 < sign e.taken * p.output e.pc := by
    refine lt_of_lt_of_le ?_ total
    rw [length]
    positivity
  cases taken : e.taken with
  | true =>
      rw [taken, sign, if_pos rfl] at positive
      exact decide_eq_true (by omega)
  | false =>
      rw [taken, sign, if_neg Bool.false_ne_true] at positive
      exact decide_eq_false (by omega)

theorem settled_of_near (steady : p.Steady e.taken) (wide : 1 ≤ p.config.weightMax)
    (near : List.Forall₂ (Within p.config e.taken k) (p.row e.pc) p.inputs) (long : k ≤ n) :
    (p.trainAll (List.replicate n e)).Settled e := by
  induction k generalizing p n with
  | zero =>
      have settled : p.Settled e :=
        ⟨steady.train_eq fun _ => adjust_of_saturated near, predict_of_saturated wide near⟩
      rw [settled.trainAll]
      exact settled
  | succ k ih =>
      -- A training that adjusts nothing ends the way early, wherever the weights stand.
      by_cases active : p.adjusts e
      · cases n with
        | zero => exact absurd long (Nat.not_succ_le_zero k)
        | succ n =>
            have nearer := within_adjust near
            have row := p.row_train e e.pc
            rw [if_pos ⟨rfl, active⟩] at row
            rw [← row, ← steady.inputs_train] at nearer
            exact ih (p := p.train e) steady.train wide nearer (Nat.le_of_succ_le_succ long)
      · have settled : p.Settled e :=
          ⟨steady.train_eq fun active' => absurd active' active, predict_of_not_adjusts active⟩
        rw [settled.trainAll]
        exact settled

theorem steady_trainAll_replicate (p : Perceptron) (e : Event)
    (positive : 0 < p.config.historyLength.toNat)
    (fits : p.config.historyLength.toNat ≤ History.maxWidth)
    (long : p.config.historyLength.toNat ≤ n) :
    (p.trainAll (List.replicate n e)).Steady e.taken := by
  have full : (p.trainAll (List.replicate n e)).history =
      .uniform p.config.historyLength.toNat e.taken := by
    rw [history_trainAll, List.map_replicate, History.pushAll_replicate _ positive fits long]
  rw [Steady, full, config_trainAll, History.push_uniform fits]

/-- From every state that training and resets can reach, enough trainings with one event make its
prediction right and leave nothing that another one would change. -/
theorem repeated_training_settles (built : ofConfig c = .ok p) (ops : List Operation) (e : Event)
    (long : c.historyLength.toNat + 2 ^ c.weightBits.toNat - 1 ≤ n) :
    let q := (p.performAll ops).trainAll (List.replicate n e)
    q.predict e.pc = e.taken ∧ q.train e = q ∧
      ∀ m, (q.trainAll (List.replicate m e)).predict e.pc = e.taken := by
  intro q
  obtain ⟨valid, rfl⟩ := of_ofConfig built
  obtain ⟨power, ⟨positive, fits⟩, bits, -⟩ := PerceptronConfig.validate_eq_ok_iff.1 valid
  have wide := PerceptronConfig.one_le_weightMax bits
  have span := PerceptronConfig.weightMax_le_weightMin_add (Nat.zero_lt_of_lt bits)
  have kept := (kept_fresh c).performAll fits ops
  have range_positive := Nat.two_pow_pos c.weightBits.toNat
  obtain ⟨m, rfl⟩ : ∃ m, n = c.historyLength.toNat + m := Nat.exists_eq_add_of_le (by omega)
  -- The first trainings fill the history, the others bring the weights to rest.
  let filled := ((fresh c).performAll ops).trainAll (List.replicate c.historyLength.toNat e)
  have kept_filled : Kept c filled := kept.trainAll fits _
  have config : filled.config = c := kept_filled.config
  have steady : filled.Steady e.taken := by
    apply steady_trainAll_replicate
    all_goals rw [kept.config]
    exacts [positive, fits]
  have member := kept_filled.mem_rows power e.pc
  have near : List.Forall₂ (Within filled.config e.taken (2 ^ c.weightBits.toNat - 1))
      (filled.row e.pc) filled.inputs := by
    rw [config]
    apply within_of_range span
    · rw [kept_filled.shaped.length _ member, length_inputs]
    · exact kept_filled.range _ member
    · exact filled.inputs_units
  have settled : q.Settled e := by
    have later := settled_of_near steady (config.symm ▸ wide) near (n := m) (by omega)
    rw [← trainAll_append, ← List.replicate_add] at later
    exact later
  refine ⟨settled.right, settled.fixed, fun m => ?_⟩
  rw [settled.trainAll]
  exact settled.right

theorem repeated_training_settles_after_reversal :
    let c : PerceptronConfig := ⟨2, 1, 2, 15⟩
    let before := (fresh c).performAll (List.replicate 9 (.train ⟨4, true⟩))
    let after := before.trainAll (List.replicate 4 ⟨4, false⟩)
    ofConfig c = .ok (fresh c) ∧ c.historyLength.toNat + 2 ^ c.weightBits.toNat - 1 ≤ 4 ∧
      before.rows = #[[0, 0], [1, 1]] ∧ before.predict 4 = true ∧
      after.rows = #[[0, 0], [-2, 1]] ∧ after.predict 4 = false ∧
      after.train ⟨4, false⟩ = after := by
  intro c before after
  have valid : c.validate = .ok () := PerceptronConfig.validate_eq_ok_iff.2 (by decide)
  have built : ofConfig c = .ok (fresh c) := by
    rw [ofConfig_eq, valid]
    rfl
  have long : c.historyLength.toNat + 2 ^ c.weightBits.toNat - 1 ≤ 4 := by decide
  obtain ⟨right, fixed, -⟩ :=
    repeated_training_settles built (List.replicate 9 (.train ⟨4, true⟩)) ⟨4, false⟩ long
  exact ⟨built, long, by decide +kernel, by decide +kernel, by decide +kernel, right, fixed⟩

end Perceptron

end BranchSim
