import BranchSim.Proofs.Perceptron.Layout
import Mathlib.Data.List.Forall2
import Mathlib.Tactic.Linarith

namespace BranchSim.Perceptron

variable {c : PerceptronConfig} {taken : Bool} {k : Nat} {w x : Int} {row xs : List Int}

/-- A weight in range that at most `k` steps with its input `x` take to its bound. -/
structure Within (c : PerceptronConfig) (taken : Bool) (k : Nat) (w x : Int) : Prop where
  lower : c.weightMin ≤ w
  upper : w ≤ c.weightMax
  unit : sign taken * x = 1 ∨ sign taken * x = -1
  up : sign taken * x = 1 → c.weightMax ≤ w + k
  down : sign taken * x = -1 → w ≤ c.weightMin + k

namespace Within

theorem step (within : Within c taken (k + 1) w x) :
    Within c taken k (clamp c.weightMin c.weightMax (w + sign taken * x)) x := by
  obtain ⟨lower, upper, unit, up, down⟩ := within
  unfold clamp
  rcases unit with toward | away
  · have near := up toward
    rw [toward]
    exact ⟨by omega, by omega, .inl toward, by omega, by omega⟩
  · have near := down away
    rw [away]
    exact ⟨by omega, by omega, .inr away, by omega, by omega⟩

theorem clamp_eq (within : Within c taken 0 w x) :
    clamp c.weightMin c.weightMax (w + sign taken * x) = w := by
  obtain ⟨lower, upper, unit, up, down⟩ := within
  unfold clamp
  rcases unit with toward | away
  · have arrived := up toward
    rw [toward]
    omega
  · have arrived := down away
    rw [away]
    omega

/-- The lower bound is one further from zero than the upper one, so either gives this much. -/
theorem weightMax_le (within : Within c taken 0 w x) : c.weightMax ≤ sign taken * (w * x) := by
  have product : sign taken * (w * x) = w * (sign taken * x) := Int.mul_left_comm ..
  rw [product]
  rcases within.unit with toward | away
  · have arrived := within.up toward
    rw [toward]
    omega
  · have arrived := within.down away
    have bounds : c.weightMin = -c.weightMax - 1 := by
      rw [PerceptronConfig.weightMin, PerceptronConfig.weightMax]
      omega
    rw [away]
    omega

end Within

theorem within_adjust (near : List.Forall₂ (Within c taken (k + 1)) row xs) :
    List.Forall₂ (Within c taken k) (adjust c xs taken row) xs := by
  induction near with
  | nil => exact .nil
  | cons here _ ih => exact .cons here.step ih

theorem adjust_of_saturated (full : List.Forall₂ (Within c taken 0) row xs) :
    adjust c xs taken row = row := by
  induction full with
  | nil => rfl
  | cons here _ ih =>
      rw [adjust, List.zipWith_cons_cons, here.clamp_eq]
      exact congrArg _ ih

theorem length_mul_le_of_saturated (full : List.Forall₂ (Within c taken 0) row xs) :
    row.length * c.weightMax ≤ sign taken * dot row xs := by
  induction full with
  | nil => simp [dot]
  | cons here _ ih =>
      have first := here.weightMax_le
      rw [dot, List.length_cons]
      push_cast
      linarith

theorem within_of_range {n : Nat} (span : c.weightMax ≤ c.weightMin + n)
    (same : row.length = xs.length) (range : ∀ w ∈ row, c.weightMin ≤ w ∧ w ≤ c.weightMax)
    (units : ∀ x ∈ xs, x = 1 ∨ x = -1) : List.Forall₂ (Within c taken n) row xs := by
  induction row generalizing xs with
  | nil =>
      obtain rfl : xs = [] := List.length_eq_zero_iff.1 same.symm
      exact .nil
  | cons w row ih =>
      cases xs with
      | nil => cases same
      | cons x xs =>
          obtain ⟨⟨lower, upper⟩, range⟩ := List.forall_mem_cons.1 range
          obtain ⟨unit, units⟩ := List.forall_mem_cons.1 units
          have pointed : sign taken * x = 1 ∨ sign taken * x = -1 := by
            cases taken with
            | true => rcases unit with rfl | rfl <;> decide
            | false => rcases unit with rfl | rfl <;> decide
          exact .cons ⟨lower, upper, pointed, fun _ => by omega, fun _ => by omega⟩
            (ih (Nat.succ.inj same) range units)

end BranchSim.Perceptron
