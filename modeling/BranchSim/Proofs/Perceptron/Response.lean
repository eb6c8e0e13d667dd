import BranchSim.Proofs.Perceptron.Convergence
import BranchSim.Proofs.Perceptron.Rule

namespace BranchSim
open scoped BigOperators Finset
open Predictor (Operation)

namespace PerceptronConfig

def limit (c : PerceptronConfig) (up : Bool) : Int :=
  if up then c.weightMax else c.weightMin

theorem sign_mul_nudge_sub (c : PerceptronConfig) (up : Bool) (w : Int) :
    sign up * (c.nudge up w - w) = if w = c.limit up then 0 else 1 := by
  cases up with
  | true =>
      change 1 * ((if w = c.weightMax then w else w + 1) - w) = if w = c.weightMax then 0 else 1
      split
      · omega
      · omega
  | false =>
      change -1 * ((if w = c.weightMin then w else w - 1) - w) = if w = c.weightMin then 0 else 1
      split
      · omega
      · omega

end PerceptronConfig

namespace Perceptron

variable {c : PerceptronConfig} {p : Perceptron} {h : History} {taken : Bool} {bias : Int}
  {w : Nat → Int}

/-- How many weights of a row are not at the bound toward which the outcome pushes them: the bias
with the outcome, the others with whether the outcome is the one in the history. -/
def room (c : PerceptronConfig) (h : History) (taken : Bool) (bias : Int) (w : Nat → Int) : Nat :=
  (if bias = c.limit taken then 0 else 1) +
    #{i ∈ Finset.range c.historyLength.toNat | w i ≠ c.limit (h.outcome i == taken)}

theorem room_le (c : PerceptronConfig) (h : History) (taken : Bool) (bias : Int) (w : Nat → Int) :
    room c h taken bias w ≤ c.historyLength.toNat + 1 := by
  have weights := Finset.card_filter_le (Finset.range c.historyLength.toNat)
    fun i => w i ≠ c.limit (h.outcome i == taken)
  rw [Finset.card_range] at weights
  unfold room
  split
  · omega
  · omega

theorem full_of_room_eq_zero (full : room c h taken bias w = 0) :
    bias = c.limit taken ∧ ∀ i < c.historyLength.toNat, w i = c.limit (h.outcome i == taken) := by
  obtain ⟨first, others⟩ := Nat.add_eq_zero_iff.1 full
  constructor
  · by_contra away
    rw [if_neg away] at first
    exact Nat.one_ne_zero first
  · intro i inside
    by_contra away
    rw [Finset.card_eq_zero, Finset.filter_eq_empty_iff] at others
    exact others (Finset.mem_range.2 inside) away

theorem dot_nudged (c : PerceptronConfig) (h : History) (taken : Bool) (bias : Int) (w : Nat → Int) :
    let xs := 1 :: h.signs c.historyLength.toNat
    sign taken * (dot (nudged c h taken bias w) xs -
      dot (bias :: (List.range c.historyLength.toNat).map w) xs) = room c h taken bias w := by
  intro xs
  have each (i : Nat) :
      sign taken * (c.nudge (h.outcome i == taken) (w i) * sign (h.outcome i) -
        w i * sign (h.outcome i)) = if w i ≠ c.limit (h.outcome i == taken) then 1 else 0 := by
    rw [ite_not, ← c.sign_mul_nudge_sub, ← sign_mul_sign]
    ring
  have counted : ∑ i ∈ Finset.range c.historyLength.toNat,
      (if w i ≠ c.limit (h.outcome i == taken) then 1 else 0 : Int) =
        #{i ∈ Finset.range c.historyLength.toNat | w i ≠ c.limit (h.outcome i == taken)} := by
    rw [Finset.card_filter]
    push_cast
    rfl
  calc sign taken * (dot (nudged c h taken bias w) xs - dot (bias :: _) xs)
      = sign taken * (c.nudge taken bias - bias) + ∑ i ∈ Finset.range c.historyLength.toNat,
          sign taken * (c.nudge (h.outcome i == taken) (w i) * sign (h.outcome i) -
            w i * sign (h.outcome i)) := by
        rw [nudged, dot_signs, dot_signs, ← Finset.mul_sum, Finset.sum_sub_distrib]
        ring
    _ = room c h taken bias w := by
        rw [c.sign_mul_nudge_sub, Finset.sum_congr rfl fun i _ => each i, counted, room]
        push_cast
        rfl

theorem within_limit {x v : Int} {up : Bool} (pushed : sign taken * x = sign up)
    (arrived : v = c.limit up) : Within c taken 0 v x := by
  obtain ⟨low, high⟩ := zero_mem_range c
  subst arrived
  cases up with
  | true =>
      change sign taken * x = 1 at pushed
      change Within c taken 0 c.weightMax x
      exact ⟨by omega, le_rfl, .inl pushed, fun _ => by omega, fun _ => by omega⟩
  | false =>
      change sign taken * x = -1 at pushed
      change Within c taken 0 c.weightMin x
      exact ⟨le_rfl, by omega, .inr pushed, fun _ => by omega, fun _ => by omega⟩

theorem saturated_of_room_eq_zero (full : room c h taken bias w = 0) :
    List.Forall₂ (Within c taken 0) (bias :: (List.range c.historyLength.toNat).map w)
      (1 :: h.signs c.historyLength.toNat) := by
  obtain ⟨first, others⟩ := full_of_room_eq_zero full
  refine .cons (within_limit (mul_one _) first) ?_
  rw [History.signs, List.forall₂_map_left_iff, List.forall₂_map_right_iff, List.forall₂_same]
  intro i member
  exact within_limit (sign_mul_sign _ _) (others i (List.mem_range.1 member))

/-- In every state that training and resets can reach, a training moves the output for the history
it has seen toward the outcome, by the number of weights that have room to move. A misprediction
leaves some room. -/
theorem training_moves_output (built : ofConfig c = .ok p) (ops : List Operation) (e : Event) :
    let q := p.performAll ops
    let after := q.train e
    let before := q.output e.pc
    let moved := { after with history := q.history }.output e.pc
    let wrong := decide (0 ≤ before) ≠ e.taken
    let small := |before| ≤ c.trainingThreshold.toNat
    ∃ bias w, q.weights? (q.index e.pc) =
        some (bias :: (List.range c.historyLength.toNat).map w) ∧
      (¬ (wrong ∨ small) → moved = before) ∧
      (wrong ∨ small → sign e.taken * (moved - before) = room c q.history e.taken bias w) ∧
      0 ≤ sign e.taken * (moved - before) ∧
      sign e.taken * (moved - before) ≤ c.historyLength.toNat + 1 ∧
      (wrong → 1 ≤ sign e.taken * (moved - before)) := by
  intro q after before moved wrong small
  obtain ⟨valid, rfl⟩ := of_ofConfig built
  obtain ⟨power, ⟨-, fits⟩, bits, -⟩ := PerceptronConfig.validate_eq_ok_iff.1 valid
  have kept : Kept c q := (kept_fresh c).performAll fits ops
  have config : q.config = c := kept.config
  have at_index := kept.weights?_index power e.pc
  obtain ⟨bias, w, row, range, -⟩ := kept.exists_row power e.pc
  have inputs : q.inputs = 1 :: q.history.signs c.historyLength.toNat := by
    rw [Perceptron.inputs, config]
  have adjusts : q.adjusts e ↔ wrong ∨ small := by rw [adjusts_iff, predict, config]
  have before_eq : before = dot (bias :: (List.range c.historyLength.toNat).map w) q.inputs := by
    rw [← row]
    rfl
  have moved_eq : moved = dot (after.row e.pc) q.inputs := rfl
  have idle : ¬ (wrong ∨ small) → moved = before := by
    intro idle
    rw [moved_eq, q.row_train, if_neg fun both => idle (adjusts.1 both.2)]
    rfl
  have active : wrong ∨ small →
      sign e.taken * (moved - before) = room c q.history e.taken bias w := by
    intro active
    rw [moved_eq, q.row_train, if_pos ⟨rfl, adjusts.2 active⟩, before_eq, row, config, inputs,
      adjust_eq_nudged c q.history e.taken range]
    exact dot_nudged c q.history e.taken bias w
  have bounds : 0 ≤ sign e.taken * (moved - before) ∧
      sign e.taken * (moved - before) ≤ c.historyLength.toNat + 1 := by
    by_cases changes : wrong ∨ small
    · have most := room_le c q.history e.taken bias w
      rw [active changes]
      omega
    · rw [idle changes, sub_self, mul_zero]
      omega
  refine ⟨bias, w, row ▸ at_index, idle, active, bounds.1, bounds.2, fun mispredicted => ?_⟩
  rw [active (.inl mispredicted)]
  -- A row without room is saturated at the outcome, and then the prediction would have been right.
  by_contra none
  have full : room c q.history e.taken bias w = 0 := by omega
  have right : q.predict e.pc = e.taken := by
    apply predict_of_saturated
    · rw [config]
      exact PerceptronConfig.one_le_weightMax bits
    · rw [config, row, inputs]
      exact saturated_of_room_eq_zero full
  exact mispredicted right

theorem training_moves_output_past_saturated_bias :
    let c : PerceptronConfig := ⟨2, 2, 2, 3⟩
    let q := (fresh c).performAll [.train ⟨4, true⟩, .train ⟨4, true⟩]
    let after := q.train ⟨20, true⟩
    ofConfig c = .ok (fresh c) ∧ q.weights? (q.index 20) = some [1, 0, -2] ∧
      q.history = ⟨3⟩ ∧ q.output 20 = -1 ∧
      { after with history := q.history }.output 20 - q.output 20 = 2 := by
  intro c q after
  have valid : c.validate = .ok () := PerceptronConfig.validate_eq_ok_iff.2 ⟨⟨1, rfl⟩, by decide⟩
  have built : ofConfig c = .ok (fresh c) := ofConfig_of_validate valid
  have width : c.historyLength.toNat = 2 := by decide
  have row : q.weights? (q.index 20) = some [1, 0, -2] := by decide +kernel
  have outcomes : q.history = ⟨3⟩ := by decide +kernel
  have output : q.output 20 = -1 := by decide +kernel
  obtain ⟨bias, w, at_index, -, active, -⟩ :=
    training_moves_output built [.train ⟨4, true⟩, .train ⟨4, true⟩] ⟨20, true⟩
  rw [width] at at_index
  obtain ⟨rfl, first, second⟩ : 1 = bias ∧ 0 = w 0 ∧ -2 = w 1 := by
    simpa [List.range_succ] using row.symm.trans at_index
  have room : room c q.history true 1 w = 2 := by
    rw [Perceptron.room, width, outcomes, Finset.card_filter, Finset.sum_range_succ,
      Finset.sum_range_one, ← first, ← second]
    decide
  have moved := active (.inr (by rw [output]; decide))
  rw [room] at moved
  refine ⟨built, row, outcomes, output, ?_⟩
  exact (one_mul _).symm.trans moved

end Perceptron

end BranchSim
