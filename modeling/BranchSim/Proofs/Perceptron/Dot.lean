import BranchSim.Perceptron
import Mathlib.Algebra.BigOperators.Group.Finset.Basic
import Mathlib.Algebra.Order.BigOperators.Ring.Finset
import Mathlib.Algebra.Order.Ring.Int
import Mathlib.Tactic.Ring

namespace BranchSim
open scoped BigOperators

theorem dot_eq_sum (u w : List Int) (n : Nat) (covered : u.length ≤ n) :
    dot u w = ∑ i ∈ Finset.range n, u.getD i 0 * w.getD i 0 := by
  induction u generalizing w n with
  | nil => simp [dot]
  | cons a u ih =>
      cases w with
      | nil => simp [dot]
      | cons b w =>
          cases n with
          | zero => simp at covered
          | succ n =>
              rw [Finset.sum_range_succ', dot, ih w n (Nat.le_of_succ_le_succ covered), add_comm]
              rfl

theorem dot_map_range (f g : Nat → Int) (n : Nat) :
    dot ((List.range n).map f) ((List.range n).map g) = ∑ i ∈ Finset.range n, f i * g i := by
  rw [dot_eq_sum _ _ n (by simp)]
  apply Finset.sum_congr rfl
  intro i member
  have bound := Finset.mem_range.1 member
  simp [bound]

theorem dot_signs (h : History) (n : Nat) (bias : Int) (w : Nat → Int) :
    dot (bias :: (List.range n).map w) (1 :: h.signs n) =
      bias + ∑ i ∈ Finset.range n, w i * sign (h.outcome i) := by
  rw [dot, mul_one]
  exact congrArg (bias + ·) (dot_map_range ..)

theorem dot_self_nonneg (w : List Int) : 0 ≤ dot w w := by
  rw [dot_eq_sum w w w.length le_rfl]
  exact Finset.sum_nonneg fun i _ => mul_self_nonneg _

/-- The Cauchy–Schwarz inequality. -/
theorem dot_sq_le (u w : List Int) : dot u w ^ 2 ≤ dot u u * dot w w := by
  have left : u.length ≤ u.length + w.length := Nat.le_add_right ..
  have right : w.length ≤ u.length + w.length := Nat.le_add_left ..
  rw [dot_eq_sum u w _ left, dot_eq_sum u u _ left, dot_eq_sum w w _ right]
  simp only [← pow_two]
  exact Finset.sum_mul_sq_le_sq_mul_sq ..

theorem dot_comm (u w : List Int) : dot u w = dot w u := by
  induction u generalizing w with
  | nil => cases w <;> rfl
  | cons a u ih =>
      cases w with
      | nil => rfl
      | cons b w => rw [dot, dot, ih, mul_comm]

@[simp] theorem dot_replicate_zero (u : List Int) (n : Nat) : dot u (List.replicate n 0) = 0 := by
  induction u generalizing n with
  | nil => rfl
  | cons a u ih =>
      cases n with
      | zero => rfl
      | succ n => rw [List.replicate_succ, dot, ih, mul_zero, zero_add]

def advance (t : Int) (w x : List Int) : List Int :=
  List.zipWith (fun w x => w + t * x) w x

theorem dot_advance (t : Int) (u : List Int) {w x : List Int} (same : w.length = x.length) :
    dot u (advance t w x) = dot u w + t * dot u x := by
  induction u generalizing w x with
  | nil => simp [dot]
  | cons a u ih =>
      cases w with
      | nil =>
          obtain rfl : x = [] := List.length_eq_zero_iff.1 same.symm
          simp [advance, dot]
      | cons b w =>
          cases x with
          | nil => simp at same
          | cons y x =>
              have rest := ih (Nat.succ.inj same)
              rw [advance, List.zipWith_cons_cons, dot, dot, dot, ← advance, rest]
              ring

theorem dot_advance_self (t : Int) {w x : List Int} (same : w.length = x.length) :
    dot (advance t w x) (advance t w x) = dot w w + 2 * t * dot w x + t ^ 2 * dot x x := by
  rw [dot_advance t _ same, dot_comm _ w, dot_comm _ x, dot_advance t _ same,
    dot_advance t _ same, dot_comm x w]
  ring

theorem dot_self_of_units {x : List Int} (units : ∀ v ∈ x, v = 1 ∨ v = -1) :
    dot x x = x.length := by
  induction x with
  | nil => rfl
  | cons v x ih =>
      rw [dot, ih fun w member => units w (List.mem_cons_of_mem _ member), List.length_cons]
      rcases units v (List.mem_cons_self ..) with rfl | rfl
      · push_cast
        ring
      · push_cast
        ring

theorem natAbs_sign (taken : Bool) : (sign taken).natAbs = 1 := by
  cases taken <;> rfl

theorem natAbs_le_of_mem_advance {t : Int} {w x : List Int} {k : Nat} (unit : t.natAbs = 1)
    (units : ∀ v ∈ x, v = 1 ∨ v = -1) (reach : ∀ v ∈ w, v.natAbs ≤ k) :
    ∀ v ∈ advance t w x, v.natAbs ≤ k + 1 := by
  induction w generalizing x with
  | nil => simp [advance]
  | cons a w ih =>
      cases x with
      | nil => simp [advance]
      | cons b x =>
          obtain ⟨here, later⟩ := List.forall_mem_cons.1 reach
          obtain ⟨input, inputs⟩ := List.forall_mem_cons.1 units
          have product : (t * b).natAbs = 1 := by
            rw [Int.natAbs_mul, unit, one_mul]
            rcases input with rfl | rfl <;> rfl
          have sum : (a + t * b).natAbs ≤ k + 1 := by
            have triangle := Int.natAbs_add_le a (t * b)
            omega
          rw [advance, List.zipWith_cons_cons, List.forall_mem_cons]
          exact ⟨sum, ih inputs later⟩

theorem clamp_of_mem {lo hi v : Int} (above : lo ≤ v) (below : v ≤ hi) : clamp lo hi v = v := by
  rw [clamp, min_eq_right below, max_eq_right above]

theorem natAbs_clamp_le {lo hi : Int} (nonpos : lo ≤ 0) (nonneg : 0 ≤ hi) (v : Int) :
    (clamp lo hi v).natAbs ≤ v.natAbs := by
  unfold clamp
  omega

namespace Perceptron

theorem adjust_eq_map_clamp (c : PerceptronConfig) (x w : List Int) (taken : Bool) :
    adjust c x taken w = (advance (sign taken) w x).map (clamp c.weightMin c.weightMax) := by
  rw [advance, List.map_zipWith]
  rfl

theorem adjust_of_reach (c : PerceptronConfig) (x w : List Int) (taken : Bool)
    (reach : ∀ v ∈ advance (sign taken) w x, v.natAbs < c.weightBound) :
    adjust c x taken w = advance (sign taken) w x := by
  rw [adjust_eq_map_clamp]
  refine (List.map_congr_left fun v member => ?_).trans (List.map_id _)
  have within := reach v member
  apply clamp_of_mem
  · rw [PerceptronConfig.weightMin]
    omega
  · rw [PerceptronConfig.weightMax]
    omega

end Perceptron

end BranchSim
