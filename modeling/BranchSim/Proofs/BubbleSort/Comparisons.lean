import BranchSim.Proofs.BubbleSort.Positions
import BranchSim.Proofs.Trail
import Mathlib.Algebra.BigOperators.Fin
import Mathlib.Tactic.Ring

/-!
# Comparisons and inversions

The branches of the sort, counted. A comparison is taken where two neighbours are out of order, and
the swap that follows removes the inversion of these two and no other one. When all are removed the
list is sorted, so the comparisons taken count the inversions there were.
-/

namespace BranchSim.Workload.BubbleSort
open scoped Finset BigOperators

variable {k : Nat} {xs : List Int}

/-! ## Inversions -/

def inversions : List Int → Nat
  | [] => 0
  | a :: rest => rest.countP (· < a) + inversions rest

theorem inversions_eq_card (xs : List Int) :
    inversions xs = #{p : Fin xs.length × Fin xs.length | p.1 < p.2 ∧ xs[p.2] < xs[p.1]} := by
  rw [Finset.card_filter, Fintype.sum_prod_type]
  induction xs with
  | nil => rfl
  | cons a rest ih =>
      have first : rest.countP (· < a) = ∑ j : Fin rest.length, if rest[j] < a then 1 else 0 := by
        have listed := countP_ofFn (fun j : Fin rest.length => rest[j]) (· < a)
        have whole : List.ofFn (fun j : Fin rest.length => rest[j]) = rest := List.ofFn_getElem
        rw [whole] at listed
        rw [listed, Finset.card_filter]
        simp only [decide_eq_true_eq]
      -- The pairs that begin with the head, and those that lie in the rest.
      rw [inversions, ih, first]
      change _ = ∑ i : Fin (rest.length + 1), ∑ j : Fin (rest.length + 1), _
      rw [Fin.sum_univ_succ]
      congr 1
      · rw [Fin.sum_univ_succ]
        simp
      · apply Finset.sum_congr rfl
        intro i _
        rw [Fin.sum_univ_succ]
        simp

theorem inversions_min_max (a b : Int) (rest : List Int) :
    inversions (a :: b :: rest) =
      (decide (b < a)).toNat + inversions (min a b :: max a b :: rest) := by
  rcases lt_or_ge b a with less | order
  · rw [min_eq_right less.le, max_eq_left less.le]
    simp [inversions, less, less.le]
    omega
  · rw [min_eq_left order, max_eq_right order]
    simp [order]

theorem inversions_of_sorted (sorted : xs.Pairwise (· ≤ ·)) : inversions xs = 0 := by
  induction sorted with
  | nil => rfl
  | cons first _ ih =>
      rw [inversions, ih, Nat.add_zero, List.countP_eq_zero]
      intro b member
      simpa using first b member

/-! ## Swaps -/

def swaps (events : List Event) : Nat :=
  events.countP fun e => e.pc = compareSite ∧ e.taken

theorem swaps_pass (k : Nat) (xs : List Int) :
    swaps (pass k xs).emitted + inversions (pass k xs).value = inversions xs := by
  induction k, xs using pass_induction with
  | ends k xs ends =>
      rw [pass_ends ends]
      exact Nat.zero_add _
  | step k a b rest ih =>
      have behind := (pass_perm k (max a b :: rest)).countP_eq (· < min a b)
      have here : swaps (pass (k + 1) (a :: b :: rest)).emitted =
          swaps (pass k (max a b :: rest)).emitted + (decide (b < a)).toNat := by
        rw [pass_succ]
        by_cases less : b < a
        · simp [swaps, less, innerSite, compareSite]
        · simp [swaps, less, innerSite, compareSite]
      rw [inversions_min_max, here, pass_succ, inversions, inversions, behind, ← ih]
      omega

theorem swaps_passes (k : Nat) (xs : List Int) :
    swaps (passes k xs).emitted + inversions (passes k xs).value = inversions xs := by
  induction k generalizing xs with
  | zero => exact Nat.zero_add _
  | succ k ih =>
      have later := ih (pass (k + 1) xs).value
      have first := swaps_pass (k + 1) xs
      have split : swaps (passes (k + 1) xs).emitted = swaps (pass (k + 1) xs).emitted +
          swaps (passes k (pass (k + 1) xs).value).emitted := by
        rw [passes_succ, swaps, List.countP_cons_of_neg (by decide), List.countP_append]
        rfl
      rw [split, passes_succ]
      simp only
      omega

theorem swaps_sort (xs : List Int) : swaps (sort xs).emitted = inversions xs := by
  have total := swaps_passes (xs.length - 1) xs
  have none : inversions (passes (xs.length - 1) xs).value = 0 :=
    inversions_of_sorted (sort_sorted xs)
  rw [none, Nat.add_zero] at total
  exact total

/-! ## Comparisons -/

theorem comparisons_pass (inside : k < xs.length) :
    (pass k xs).emitted.countP (·.pc = compareSite) = k := by
  induction k, xs using pass_induction with
  | ends k xs ends =>
      obtain rfl : k = 0 := by omega
      rw [pass_ends ends]
      rfl
  | step k a b rest ih =>
      have later := ih (Nat.lt_of_succ_lt_succ inside)
      rw [pass_succ, List.countP_cons_of_neg (by decide), List.countP_cons_of_pos (by simp), later]

theorem comparisons_passes (inside : k < xs.length) :
    2 * (passes k xs).emitted.countP (·.pc = compareSite) = k * (k + 1) := by
  induction k generalizing xs with
  | zero => rfl
  | succ k ih =>
      have length := (pass_perm (k + 1) xs).length_eq
      have later := ih (show k < (pass (k + 1) xs).value.length by omega)
      rw [passes_succ, List.countP_cons_of_neg (by decide), List.countP_append,
        comparisons_pass inside, Nat.mul_add, later]
      ring

theorem pass_sites (k : Nat) (xs : List Int) :
    ∀ e ∈ (pass k xs).emitted, e.pc = innerSite ∨ e.pc = compareSite := by
  induction k, xs using pass_induction with
  | ends k xs ends =>
      rw [pass_ends ends]
      simp
  | step k a b rest ih =>
      rw [pass_succ]
      simpa using ih

theorem passes_sites (k : Nat) (xs : List Int) :
    ∀ e ∈ (passes k xs).emitted, e.pc = outerSite ∨ e.pc = innerSite ∨ e.pc = compareSite := by
  induction k generalizing xs with
  | zero =>
      rw [passes]
      simp
  | succ k ih =>
      intro e member
      rw [passes_succ, List.mem_cons, List.mem_append] at member
      rcases member with rfl | inner | later
      · exact .inl rfl
      · exact .inr (pass_sites _ _ e inner)
      · exact ih _ e later

theorem sort_ne_verifySite (xs : List Int) : ∀ e ∈ (sort xs).emitted, e.pc ≠ verifySite := by
  intro e member
  rcases passes_sites _ xs e member with site | site | site <;> rw [site] <;> decide

/-! ## The whole run -/

theorem emitted_run (xs : List Int) :
    (run xs).emitted = (sort xs).emitted ++
      ((List.replicate (xs.length - 1) [⟨verifyLoopSite, true⟩, ⟨verifySite, false⟩]).flatten ++
        [⟨verifyLoopSite, false⟩]) := by
  have checked := verify_of_sorted (sort_sorted xs)
  rw [(sort_perm xs).length_eq] at checked
  rw [run, Recorded.emitted_bind, Recorded.emitted_bind, checked, Recorded.emitted_pure,
    List.append_nil]

theorem value_run (xs : List Int) : (run xs).value = 1 := by
  rw [run, Recorded.value_bind, Recorded.value_bind, verify_of_sorted (sort_sorted xs)]
  rfl

theorem countP_run (p : Event → Bool) (xs : List Int) :
    (run xs).emitted.countP p = (sort xs).emitted.countP p +
      ((xs.length - 1) * [⟨verifyLoopSite, true⟩, ⟨verifySite, false⟩].countP p +
        [⟨verifyLoopSite, false⟩].countP p) := by
  rw [emitted_run, List.countP_append, List.countP_append, List.countP_flatten,
    List.map_replicate, List.sum_replicate, smul_eq_mul]

/-- No loop leaves the array or counts below zero, the array ends up sorted, and the comparisons
taken are the inversions it had. -/
theorem sorts_and_counts_inversions {xs : List Int} (nonempty : xs ≠ []) :
    sortPositions xs = liftM (sort xs) ∧ runPositions xs = liftM (run xs) ∧
      (sort xs).value.Pairwise (· ≤ ·) ∧ (sort xs).value.Perm xs ∧
      (run xs).emitted.countP (·.pc = compareSite) = xs.length * (xs.length - 1) / 2 ∧
      (run xs).emitted.countP (fun e => e.pc = compareSite ∧ e.taken) =
        #{p : Fin xs.length × Fin xs.length | p.1 < p.2 ∧ xs[p.2] < xs[p.1]} ∧
      (run xs).emitted.countP (·.pc = verifySite) = xs.length - 1 ∧
      (∀ e ∈ (run xs).emitted, e.pc = verifySite → e.taken = false) ∧
      (run xs).value = 1 := by
  have positive := List.length_pos_iff.2 nonempty
  refine ⟨sortPositions_eq nonempty, runPositions_eq nonempty, sort_sorted xs, sort_perm xs,
    ?_, ?_, ?_, ?_, value_run xs⟩
  · have pairs := comparisons_passes (show xs.length - 1 < xs.length by omega)
    rw [Nat.sub_add_cancel positive] at pairs
    have loops : [⟨verifyLoopSite, true⟩, ⟨verifySite, false⟩].countP
        (fun e : Event => e.pc = compareSite) = 0 := by decide
    rw [countP_run, loops, Nat.mul_zero, Nat.mul_comm, ← pairs, Nat.mul_div_cancel_left _ two_pos]
    rfl
  · rw [countP_run, ← inversions_eq_card, ← swaps_sort, swaps]
    rfl
  · have none : (sort xs).emitted.countP (·.pc = verifySite) = 0 := by
      rw [List.countP_eq_zero]
      simpa using sort_ne_verifySite xs
    rw [countP_run, none]
    simp [verifyLoopSite, verifySite]
  · intro e member site
    rw [emitted_run, List.mem_append, List.mem_append] at member
    rcases member with sorting | round | last
    · exact absurd site (sort_ne_verifySite xs e sorting)
    · obtain ⟨events, copy, inside⟩ := List.mem_flatten.1 round
      rw [List.eq_of_mem_replicate copy] at inside
      rcases List.mem_pair.1 inside with rfl | rfl
      · exact absurd site (by decide)
      · rfl
    · rw [List.mem_singleton.1 last]

theorem sorts_and_counts_inversions_of_ties :
    ([3, 1, 3, -2] : List Int) ≠ [] ∧
      (sortPositions [3, 1, 3, -2]).run.value = some [-2, 1, 3, 3] ∧
      (runPositions [3, 1, 3, -2]).run.value = some 1 ∧
      (run [3, 1, 3, -2]).emitted.countP (·.pc = compareSite) = 6 ∧
      (run [3, 1, 3, -2]).emitted.countP (fun e => e.pc = compareSite ∧ e.taken) = 4 ∧
      (run [3, 1, 3, -2]).emitted.countP (·.pc = verifySite) = 3 := by
  have nonempty : ([3, 1, 3, -2] : List Int) ≠ [] := by decide
  obtain ⟨sorting, running, -, -, comparisons, taken, checks, -, one⟩ :=
    sorts_and_counts_inversions nonempty
  refine ⟨nonempty, ?_, ?_, comparisons, taken.trans (by decide), checks⟩
  · rw [sorting]
    decide
  · rw [running]
    exact congrArg some one

end BranchSim.Workload.BubbleSort
