import BranchSim.Proofs.Perceptron.Dot
import BranchSim.Proofs.Perceptron.Layout

namespace BranchSim
open scoped BigOperators
open Predictor (Operation)

namespace PerceptronConfig

def increment (c : PerceptronConfig) (w : Int) : Int :=
  if w = c.weightMax then w else w + 1

def decrement (c : PerceptronConfig) (w : Int) : Int :=
  if w = c.weightMin then w else w - 1

def nudge (c : PerceptronConfig) (up : Bool) (w : Int) : Int :=
  if up then c.increment w else c.decrement w

theorem clamp_add_sign (c : PerceptronConfig) (up : Bool) {w : Int} (lower : c.weightMin ≤ w)
    (upper : w ≤ c.weightMax) : clamp c.weightMin c.weightMax (w + sign up) = c.nudge up w := by
  cases up with
  | true =>
      change clamp c.weightMin c.weightMax (w + 1) = if w = c.weightMax then w else w + 1
      unfold clamp
      split
      · omega
      · omega
  | false =>
      change clamp c.weightMin c.weightMax (w + -1) = if w = c.weightMin then w else w - 1
      unfold clamp
      split
      · omega
      · omega

end PerceptronConfig

theorem sign_mul_sign (a b : Bool) : sign a * sign b = sign (b == a) := by
  cases a <;> cases b <;> rfl

theorem mul_sign (b : Bool) (w : Int) : w * sign b = if b then w else -w := by
  cases b with
  | true => exact mul_one w
  | false => exact mul_neg_one w

theorem exists_cons_map_range {row : List Int} {n : Nat} (length : row.length = n + 1) :
    ∃ bias w, row = bias :: (List.range n).map w := by
  cases row with
  | nil => cases length
  | cons bias ws =>
      refine ⟨bias, fun i => ws.getD i 0, ?_⟩
      have same : ws.length = n := Nat.succ.inj length
      congr 1
      apply List.ext_getElem
      · simp [same]
      · intro i bound _
        simp [bound]

namespace Perceptron

variable {c : PerceptronConfig} {p : Perceptron}

def nudged (c : PerceptronConfig) (h : History) (taken : Bool) (bias : Int) (w : Nat → Int) :
    List Int :=
  c.nudge taken bias ::
    (List.range c.historyLength.toNat).map fun i => c.nudge (h.outcome i == taken) (w i)

theorem adjust_eq_nudged (c : PerceptronConfig) (h : History) (taken : Bool) {bias : Int}
    {w : Nat → Int}
    (range : ∀ v ∈ bias :: (List.range c.historyLength.toNat).map w,
      c.weightMin ≤ v ∧ v ≤ c.weightMax) :
    adjust c (1 :: h.signs c.historyLength.toNat) taken
      (bias :: (List.range c.historyLength.toNat).map w) = nudged c h taken bias w := by
  obtain ⟨⟨lower, upper⟩, range⟩ := List.forall_mem_cons.1 range
  rw [adjust, List.zipWith_cons_cons, mul_one, c.clamp_add_sign taken lower upper, History.signs,
    List.zipWith_map, List.zipWith_self, nudged]
  -- The target times an input is positive where the outcome agrees with that of the history.
  congr 1
  apply List.map_congr_left
  intro i member
  obtain ⟨lower, upper⟩ := range (w i) (List.mem_map_of_mem member)
  change clamp _ _ (w i + sign taken * sign (h.outcome i)) = _
  rw [sign_mul_sign, c.clamp_add_sign _ lower upper]

theorem Kept.exists_row (kept : Kept c p) (power : c.numPerceptrons.toNat.isPowerOfTwo)
    (pc : Address) :
    ∃ bias w, p.row pc = bias :: (List.range c.historyLength.toNat).map w ∧
      (∀ v ∈ bias :: (List.range c.historyLength.toNat).map w,
        c.weightMin ≤ v ∧ v ≤ c.weightMax) ∧
      p.output pc = bias + ∑ i ∈ Finset.range c.historyLength.toNat,
        if p.history.outcome i then w i else -w i := by
  have member := kept.mem_rows power pc
  have length := kept.shaped.length _ member
  rw [kept.config] at length
  obtain ⟨bias, w, row⟩ := exists_cons_map_range length
  have range := kept.range _ member
  rw [row] at range
  refine ⟨bias, w, row, range, ?_⟩
  rw [output, row, inputs, kept.config, dot_signs]
  simp only [mul_sign]

theorem adjusts_iff (p : Perceptron) (e : Event) :
    p.adjusts e ↔
      p.predict e.pc ≠ e.taken ∨ |p.output e.pc| ≤ p.config.trainingThreshold.toNat := by
  rw [adjusts, Bool.or_eq_true, bne_iff_ne, decide_eq_true_iff, Int.abs_eq_natAbs, Nat.cast_le]

/-- What a training step does in every state that training and resets can reach: nothing to the
weights if the prediction is right and the output large enough, otherwise the rule for one row. -/
theorem train_eq_rule (built : ofConfig c = .ok p) (ops : List Operation) (e : Event) :
    let q := p.performAll ops
    let after := q.train e
    let n := c.historyLength.toNat
    let here := e.pc.toNat / 4 % c.numPerceptrons.toNat
    ∃ bias w, q.weights? here = some (bias :: (List.range n).map w) ∧
      let sum := bias + ∑ i ∈ Finset.range n, if q.history.outcome i then w i else -w i
      let wrong := decide (0 ≤ sum) ≠ e.taken
      let small := |sum| ≤ c.trainingThreshold.toNat
      q.output e.pc = sum ∧ q.predict e.pc = decide (0 ≤ sum) ∧
      (¬ (wrong ∨ small) → after.rows = q.rows) ∧
      (wrong ∨ small → ∀ r, after.weights? r =
        if r = here then some (nudged c q.history e.taken bias w) else q.weights? r) ∧
      after.history.word.toNat = (2 * q.history.word.toNat + e.taken.toNat) % 2 ^ n ∧
      after.config = q.config := by
  intro q after n here
  obtain ⟨valid, rfl⟩ := of_ofConfig built
  obtain ⟨power, ⟨-, fits⟩, -⟩ := PerceptronConfig.validate_eq_ok_iff.1 valid
  have kept : Kept c q := (kept_fresh c).performAll fits ops
  have config : q.config = c := kept.config
  have index : q.index e.pc = here := by rw [kept.index_eq, e.pc.toNat_word]
  have at_here := kept.weights?_index power e.pc
  obtain ⟨bias, w, row, range, output⟩ := kept.exists_row power e.pc
  rw [index, row] at at_here
  refine ⟨bias, w, at_here, ?_⟩
  intro sum wrong small
  have output : q.output e.pc = sum := output
  have predict : q.predict e.pc = decide (0 ≤ sum) := by rw [Perceptron.predict, output]
  have adjusts : q.adjusts e ↔ wrong ∨ small := by rw [adjusts_iff, predict, output, config]
  refine ⟨output, predict, fun idle => ?_, fun active r => ?_, ?_, rfl⟩
  · exact if_neg (mt adjusts.1 idle)
  · rw [weights?_train, index]
    by_cases same : r = here
    · rw [if_pos ⟨same.symm, adjusts.2 active⟩, if_pos same, same, at_here, Option.map_some, inputs,
        config, adjust_eq_nudged c q.history e.taken range]
    · rw [if_neg fun both => same both.1.symm, if_neg same]
  · have history : after.history = q.history.push n e.taken := by
      change q.history.push q.config.historyLength.toNat e.taken = _
      rw [config]
    rw [history, q.history.toNat_push fits]

theorem train_eq_rule_at_maximum :
    let c : PerceptronConfig := ⟨2, 2, 2, 3⟩
    let ops := [.train ⟨0, true⟩, .reset, .train ⟨4, true⟩]
    let q := (fresh c).performAll ops
    let after := q.train ⟨20, true⟩
    ofConfig c = .ok (fresh c) ∧ q.weights? 1 = some [1, -1, -1] ∧ q.output 20 = 1 ∧
      after.weights? 1 = some [1, 0, -2] ∧ after.history.word.toNat = 3 := by
  intro c ops q after
  have valid : c.validate = .ok () := PerceptronConfig.validate_eq_ok_iff.2 ⟨⟨1, rfl⟩, by decide⟩
  have built : ofConfig c = .ok (fresh c) := ofConfig_of_validate valid
  have here : (⟨20, true⟩ : Event).pc.toNat / 4 % c.numPerceptrons.toNat = 1 := by decide
  have width : c.historyLength.toNat = 2 := by decide
  have row : q.weights? 1 = some [1, -1, -1] := by decide +kernel
  have outcomes : q.history = ⟨1⟩ := by decide +kernel
  obtain ⟨bias, w, at_1, output, -, -, active, history, -⟩ := train_eq_rule built ops ⟨20, true⟩
  rw [here, width] at at_1
  obtain ⟨rfl, first, second⟩ : 1 = bias ∧ -1 = w 0 ∧ -1 = w 1 := by
    simpa [List.range_succ] using row.symm.trans at_1
  have sum : 1 + ∑ i ∈ Finset.range c.historyLength.toNat,
      (if q.history.outcome i then w i else -w i) = 1 := by
    rw [width, Finset.sum_range_succ, Finset.sum_range_one, ← first, ← second, outcomes]
    decide
  have changed : (q.train ⟨20, true⟩).weights? 1 = _ := active (.inr (by rw [sum]; decide)) 1
  rw [here, if_pos rfl, nudged, width, outcomes] at changed
  refine ⟨built, row, output.trans sum, changed.trans ?_, history.trans ?_⟩
  · change some [c.nudge true 1, c.nudge true (w 0), c.nudge false (w 1)] = _
    rw [← first, ← second]
    decide
  · rw [width, outcomes]
    decide

end Perceptron

end BranchSim
