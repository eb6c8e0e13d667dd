import BranchSim.Workload.BubbleSort
import Mathlib.Algebra.Order.Ring.Int

namespace BranchSim.Workload.BubbleSort

variable {k : Nat} {xs : List Int}

theorem pass_ends (ends : k = 0 ∨ xs.length ≤ 1) : pass k xs = ⟨xs, [⟨innerSite, false⟩]⟩ := by
  match k, xs, ends with
  | 0, _, _ => rfl
  | _ + 1, [], _ => rfl
  | _ + 1, [_], _ => rfl
  | _ + 1, _ :: _ :: _, ends => simp at ends

theorem pass_succ (k : Nat) (a b : Int) (rest : List Int) :
    pass (k + 1) (a :: b :: rest) =
      ⟨min a b :: (pass k (max a b :: rest)).value,
        ⟨innerSite, true⟩ :: ⟨compareSite, b < a⟩ :: (pass k (max a b :: rest)).emitted⟩ := by
  rw [pass]
  by_cases less : b < a
  · rw [min_eq_right less.le, max_eq_left less.le]
    apply Recorded.ext
    · simp [less]
    · simp [less]
  · rw [min_eq_left (not_lt.1 less), max_eq_right (not_lt.1 less)]
    apply Recorded.ext
    · simp [less]
    · simp [less]

@[elab_as_elim] theorem pass_induction {motive : Nat → List Int → Prop}
    (ends : ∀ k xs, k = 0 ∨ xs.length ≤ 1 → motive k xs)
    (step : ∀ k a b rest, motive k (max a b :: rest) → motive (k + 1) (a :: b :: rest))
    (k : Nat) (xs : List Int) : motive k xs := by
  induction k generalizing xs with
  | zero => exact ends 0 xs (.inl rfl)
  | succ k ih =>
      match xs with
      | [] => exact ends _ _ (.inr (Nat.zero_le 1))
      | [a] => exact ends _ _ (.inr (Nat.le_refl 1))
      | a :: b :: rest => exact step k a b rest (ih _)

theorem min_max_perm (a b : Int) (rest : List Int) :
    (min a b :: max a b :: rest).Perm (a :: b :: rest) := by
  rcases le_total a b with le | le
  · rw [min_eq_left le, max_eq_right le]
  · rw [min_eq_right le, max_eq_left le]
    exact .swap a b rest

theorem pass_perm (k : Nat) (xs : List Int) : (pass k xs).value.Perm xs := by
  induction k, xs using pass_induction with
  | ends k xs ends => rw [pass_ends ends]
  | step k a b rest ih =>
      rw [pass_succ]
      exact (ih.cons (min a b)).trans (min_max_perm a b rest)

theorem value_pass_append {front : List Int} (back : List Int) (inside : k < front.length) :
    (pass k (front ++ back)).value = (pass k front).value ++ back := by
  induction k, front using pass_induction with
  | ends k front ends =>
      obtain rfl : k = 0 := by omega
      rw [pass_ends (.inl rfl), pass_ends (.inl rfl)]
  | step k a b rest ih =>
      have later := ih (Nat.lt_of_succ_lt_succ inside)
      rw [List.cons_append, List.cons_append, pass_succ, pass_succ, List.cons_append, ← later]
      rfl

theorem value_pass_last (whole : xs.length = k + 1) :
    ∃ front largest, (pass k xs).value = front ++ [largest] ∧ ∀ a ∈ xs, a ≤ largest := by
  induction k, xs using pass_induction with
  | ends k xs ends =>
      obtain ⟨a, rfl⟩ : ∃ a, xs = [a] := List.length_eq_one_iff.1 (by omega)
      rw [pass_ends ends]
      exact ⟨[], a, rfl, by simp⟩
  | step k a b rest ih =>
      obtain ⟨front, largest, value, bound⟩ := ih (Nat.succ.inj whole)
      obtain ⟨carried, others⟩ := List.forall_mem_cons.1 bound
      refine ⟨min a b :: front, largest, ?_, ?_⟩
      · rw [pass_succ, value]
        rfl
      · rw [List.forall_mem_cons, List.forall_mem_cons]
        exact ⟨(le_max_left a b).trans carried, (le_max_right a b).trans carried, others⟩

/-- All but the first `k` elements are in order, and none of the first is above one of them. -/
def Settled (k : Nat) (xs : List Int) : Prop :=
  ∃ front back, xs = front ++ back ∧ front.length = k ∧ back.Pairwise (· ≤ ·) ∧
    ∀ a ∈ front, ∀ b ∈ back, a ≤ b

theorem settled_length (xs : List Int) : Settled xs.length xs :=
  ⟨xs, [], (List.append_nil xs).symm, rfl, .nil, fun _ _ _ none => absurd none List.not_mem_nil⟩

theorem Settled.sorted (settled : Settled 1 xs) : xs.Pairwise (· ≤ ·) := by
  obtain ⟨front, back, rfl, single, sorted, below⟩ := settled
  obtain ⟨a, rfl⟩ := List.length_eq_one_iff.1 single
  exact .cons (below a (List.mem_singleton_self a)) sorted

theorem Settled.pass (settled : Settled (k + 1) xs) : Settled k (pass k xs).value := by
  obtain ⟨front, back, rfl, length, sorted, below⟩ := settled
  obtain ⟨smaller, largest, value, bound⟩ := value_pass_last length
  have perm := pass_perm k front
  rw [value] at perm
  have inside : ∀ a ∈ smaller ++ [largest], a ∈ front := fun a => perm.mem_iff.1
  refine ⟨smaller, largest :: back, ?_, ?_, ?_, ?_⟩
  · rw [value_pass_append back (by omega), value, List.append_assoc]
    rfl
  · have same := perm.length_eq
    rw [List.length_append, List.length_singleton, length] at same
    exact Nat.succ.inj same
  · exact .cons (below largest (inside largest (by simp))) sorted
  · intro a member
    have source := inside a (List.mem_append_left _ member)
    rw [List.forall_mem_cons]
    exact ⟨bound a source, below a source⟩

theorem passes_succ (k : Nat) (xs : List Int) :
    passes (k + 1) xs =
      ⟨(passes k (pass (k + 1) xs).value).value, ⟨outerSite, true⟩ ::
        ((pass (k + 1) xs).emitted ++ (passes k (pass (k + 1) xs).value).emitted)⟩ :=
  rfl

theorem Settled.passes (settled : Settled (k + 1) xs) :
    (passes k xs).value.Pairwise (· ≤ ·) := by
  induction k generalizing xs with
  | zero => exact settled.sorted
  | succ k ih => exact ih settled.pass

theorem passes_perm (k : Nat) (xs : List Int) : (passes k xs).value.Perm xs := by
  induction k generalizing xs with
  | zero => exact .refl xs
  | succ k ih => exact (ih _).trans (pass_perm (k + 1) xs)

theorem sort_perm (xs : List Int) : (sort xs).value.Perm xs :=
  passes_perm _ xs

theorem sort_sorted (xs : List Int) : (sort xs).value.Pairwise (· ≤ ·) := by
  cases xs with
  | nil => exact .nil
  | cons a rest => exact (settled_length (a :: rest)).passes

theorem verify_of_sorted (sorted : xs.Pairwise (· ≤ ·)) :
    verify xs = ⟨true,
      (List.replicate (xs.length - 1) [⟨verifyLoopSite, true⟩, ⟨verifySite, false⟩]).flatten ++
        [⟨verifyLoopSite, false⟩]⟩ := by
  induction xs using verify.induct with
  | case1 a b rest ih =>
      obtain ⟨first, later⟩ := List.pairwise_cons.1 sorted
      have order : ¬ b < a := not_lt.2 (first b (List.mem_cons_self ..))
      have more : (a :: b :: rest).length - 1 = (b :: rest).length - 1 + 1 := rfl
      rw [verify, more, List.replicate_succ]
      apply Recorded.ext
      · simp [order, ih later]
      · simp [order, ih later]
  | case2 xs short =>
      match xs, short with
      | [], _ => rfl
      | [_], _ => rfl
      | _ :: _ :: _, short => exact absurd rfl (short _ _ _)

end BranchSim.Workload.BubbleSort
