import Mathlib.Data.Fintype.Basic
import Mathlib.Data.List.OfFn
import Mathlib.Data.Finset.Card
import Mathlib.Data.Fintype.Card

namespace BranchSim
open scoped Finset

variable {σ α : Type}

def trail (step : σ → α → σ) : σ → List α → List (σ × α)
  | _, [] => []
  | s, a :: as => (s, a) :: trail step (step s a) as

theorem trail_append (step : σ → α → σ) (s : σ) (as bs : List α) :
    trail step s (as ++ bs) = trail step s as ++ trail step (as.foldl step s) bs := by
  induction as generalizing s with
  | nil => rfl
  | cons a as ih => simp [trail, ih]

@[simp] theorem length_trail (step : σ → α → σ) (s : σ) (as : List α) :
    (trail step s as).length = as.length := by
  induction as generalizing s with
  | nil => rfl
  | cons a as ih => simp [trail, ih]

@[simp] theorem map_snd_trail (step : σ → α → σ) (s : σ) (as : List α) :
    (trail step s as).map (·.2) = as := by
  induction as generalizing s with
  | nil => rfl
  | cons a as ih => simp [trail, ih]

theorem getElem_trail (step : σ → α → σ) (s : σ) (as : List α) (i : Nat)
    (bound : i < (trail step s as).length) (bound' : i < as.length) :
    (trail step s as)[i] = ((as.take i).foldl step s, as[i]) := by
  induction as generalizing s i with
  | nil => simp [trail] at bound
  | cons a as ih =>
      cases i with
      | zero => rfl
      | succ i => exact ih (step s a) i (Nat.lt_of_succ_lt_succ bound) (Nat.lt_of_succ_lt_succ bound')

theorem trail_eq_map_finRange (step : σ → α → σ) (s : σ) (as : List α) :
    trail step s as =
      (List.finRange as.length).map fun k : Fin as.length =>
        ((as.take k).foldl step s, as.get k) := by
  apply List.ext_getElem
  · simp
  · intro i bound bound'
    rw [getElem_trail step s as i bound (by simpa using bound)]
    simp

theorem of_mem_trail {P : σ → Prop} {step : σ → α → σ} (keeps : ∀ s a, P s → P (step s a)) {s : σ}
    (start : P s) {as : List α} {x : σ × α} (member : x ∈ trail step s as) : P x.1 := by
  induction as generalizing s with
  | nil => exact absurd member List.not_mem_nil
  | cons a as ih =>
      rcases List.mem_cons.1 member with rfl | later
      · exact start
      · exact ih (keeps s a start) later

theorem countP_ofFn {n : Nat} (f : Fin n → α) (p : α → Bool) :
    (List.ofFn f).countP p = #{i | p (f i)} := by
  have count := List.Nodup.card_eq_countP (P := fun i => p (f i) = true) (List.nodup_finRange n)
  rw [List.toFinset_finRange] at count
  rw [List.ofFn_eq_map, List.countP_map, count]
  simp [Function.comp_def]

end BranchSim
