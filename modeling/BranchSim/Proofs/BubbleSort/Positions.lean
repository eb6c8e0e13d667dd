import BranchSim.Proofs.BubbleSort.Passes

/-!
# Bubble sort over positions

The loops of the sort as counters that walk over positions of one array. A position outside the
array and a difference below zero end such a loop without a result. Neither occurs unless the array
is empty: the loops have the result and the branches of the recursion over the list.
-/

namespace BranchSim.Workload.BubbleSort

abbrev Checked (α : Type) : Type :=
  OptionT (Recorded Event) α

def read (xs : List Int) (i : Nat) : Checked Int :=
  OptionT.mk (pure xs[i]?)

def minus (a b : Nat) : Checked Nat :=
  OptionT.mk (pure (if b ≤ a then some (a - b) else none))

def swap (xs : List Int) (i : Nat) (a b : Int) : List Int :=
  (xs.set i b).set (i + 1) a

def passFrom (limit j : Nat) (xs : List Int) : Checked (List Int) :=
  if j < limit then do
    let _ ← branch innerSite true
    let a ← read xs j
    let b ← read xs (j + 1)
    let greater ← branch compareSite (b < a)
    passFrom limit (j + 1) (if greater then swap xs j a b else xs)
  else do
    let _ ← branch innerSite false
    return xs
termination_by limit - j

def passesFrom (n rounds i : Nat) (xs : List Int) : Checked (List Int) :=
  if i < rounds then do
    let _ ← branch outerSite true
    let limit ← minus (← minus n i) 1
    let xs ← passFrom limit 0 xs
    passesFrom n rounds (i + 1) xs
  else do
    let _ ← branch outerSite false
    return xs
termination_by rounds - i

def verifyFrom (rounds i : Nat) (xs : List Int) : Checked Bool :=
  if i < rounds then do
    let _ ← branch verifyLoopSite true
    let a ← read xs i
    let b ← read xs (i + 1)
    if ← branch verifySite (b < a) then return false
    else verifyFrom rounds (i + 1) xs
  else do
    let _ ← branch verifyLoopSite false
    return true
termination_by rounds - i

def sortPositions (xs : List Int) : Checked (List Int) := do
  let rounds ← minus xs.length 1
  passesFrom xs.length rounds 0 xs

def runPositions (xs : List Int) : Checked Int := do
  let sorted ← sortPositions xs
  let rounds ← minus xs.length 1
  return if ← verifyFrom rounds 0 sorted then 1 else 0

theorem liftM_bind_eq {α β : Type} {m : Recorded Event α} {f : α → Checked β}
    {g : α → Recorded Event β} (same : f m.value = liftM (g m.value)) :
    (liftM m >>= f : Checked β) = liftM (m >>= g) := by
  rw [liftM_bind]
  exact congrArg (fun r : Checked β => (liftM m : Checked α) >>= fun _ => r) same

theorem read_eq {xs : List Int} {i : Nat} {a : Int} (inside : xs[i]? = some a) :
    read xs i = pure a := by
  rw [read, inside]
  rfl

theorem minus_eq {a b : Nat} (enough : b ≤ a) : minus a b = pure (a - b) := by
  rw [minus, if_pos enough]
  rfl

theorem getElem?_front {α : Type} (front rest : List α) (a b : α) :
    (front ++ a :: b :: rest)[front.length]? = some a ∧
      (front ++ a :: b :: rest)[front.length + 1]? = some b := by
  simp

theorem swap_front (front rest : List Int) (a b : Int) :
    swap (front ++ a :: b :: rest) front.length a b = front ++ b :: a :: rest := by
  simp [swap]

theorem passFrom_eq {k : Nat} (front : List Int) {rest : List Int} (inside : k < rest.length) :
    passFrom (front.length + k) front.length (front ++ rest) =
      liftM ((front ++ ·) <$> pass k rest) := by
  induction k generalizing front rest with
  | zero =>
      rw [Nat.add_zero, passFrom, if_neg (Nat.lt_irrefl _)]
      rfl
  | succ k ih =>
      obtain ⟨a, b, rest, rfl⟩ : ∃ a b more, rest = a :: b :: more := by
        match rest, inside with
        | a :: b :: more, _ => exact ⟨a, b, more, rfl⟩
      obtain ⟨here, next⟩ := getElem?_front front rest a b
      have later (x y : Int) : passFrom (front.length + (k + 1)) (front.length + 1)
          (front ++ x :: y :: rest) = liftM ((front ++ ·) <$> (x :: ·) <$> pass k (y :: rest)) := by
        have inside_rest : k < (y :: rest).length := Nat.lt_of_succ_lt_succ inside
        have shorter := ih (front ++ [x]) inside_rest
        simpa [Nat.add_assoc, Nat.add_comm 1] using shorter
      rw [passFrom, if_pos (by omega)]
      simp only [read_eq here, read_eq next, pure_bind]
      -- Both sides record the same two branches before they go on.
      change _ = liftM ((front ++ ·) <$> (branch innerSite true >>= fun _ =>
        branch compareSite (b < a) >>= fun greater =>
          if greater then (b :: ·) <$> pass k (a :: rest) else (a :: ·) <$> pass k (b :: rest)))
      rw [map_bind]
      apply liftM_bind_eq
      rw [map_bind]
      apply liftM_bind_eq
      rw [value_branch]
      by_cases less : b < a
      · rw [decide_eq_true less, if_pos rfl, if_pos rfl, swap_front]
        exact later b a
      · rw [decide_eq_false less, if_neg Bool.false_ne_true, if_neg Bool.false_ne_true]
        exact later a b

theorem passesFrom_eq {k i n : Nat} {xs : List Int} (length : xs.length = n)
    (left : i + k + 1 = n) : passesFrom n (n - 1) i xs = liftM (passes k xs) := by
  induction k generalizing i xs with
  | zero =>
      rw [passesFrom, if_neg (by omega)]
      rfl
  | succ k ih =>
      rw [passesFrom, if_pos (by omega)]
      simp only [minus_eq (show i ≤ n by omega), minus_eq (show 1 ≤ n - i by omega), pure_bind]
      have pairs : n - i - 1 = k + 1 := by omega
      have first : passFrom (n - i - 1) 0 xs = liftM (pass (k + 1) xs) := by
        have whole := passFrom_eq [] (show k + 1 < xs.length by omega)
        simpa [pairs] using whole
      rw [first]
      apply liftM_bind_eq
      apply liftM_bind_eq
      exact ih ((pass_perm _ _).length_eq.trans length) (by omega)

theorem verifyFrom_eq (front : List Int) {rest : List Int} (some_left : rest ≠ []) :
    verifyFrom (front.length + rest.length - 1) front.length (front ++ rest) =
      liftM (verify rest) := by
  induction rest generalizing front with
  | nil => exact absurd rfl some_left
  | cons a rest ih =>
      cases rest with
      | nil =>
          rw [verifyFrom, if_neg (by simp)]
          rfl
      | cons b rest =>
          obtain ⟨here, next⟩ := getElem?_front front rest a b
          have later := ih (front ++ [a]) (List.cons_ne_nil b rest)
          have inside : front.length < front.length + (a :: b :: rest).length - 1 := by
            simp
          rw [verifyFrom, if_pos inside]
          simp only [read_eq here, read_eq next, pure_bind]
          apply liftM_bind_eq
          apply liftM_bind_eq
          rw [value_branch]
          by_cases less : b < a
          · rw [decide_eq_true less, if_pos rfl, if_pos rfl]
            rfl
          · rw [decide_eq_false less, if_neg Bool.false_ne_true, if_neg Bool.false_ne_true]
            simpa [Nat.add_assoc, Nat.add_comm 1] using later

theorem sortPositions_eq {xs : List Int} (nonempty : xs ≠ []) :
    sortPositions xs = liftM (sort xs) := by
  have positive := List.length_pos_iff.2 nonempty
  rw [sortPositions, minus_eq positive, pure_bind]
  exact passesFrom_eq rfl (by omega)

theorem runPositions_eq {xs : List Int} (nonempty : xs ≠ []) :
    runPositions xs = liftM (run xs) := by
  have positive := List.length_pos_iff.2 nonempty
  have length : (sort xs).value.length = xs.length := (sort_perm xs).length_eq
  have sorted_nonempty : (sort xs).value ≠ [] := by
    rw [← List.length_pos_iff, length]
    exact positive
  have verified := verifyFrom_eq [] sorted_nonempty
  rw [List.length_nil, Nat.zero_add, List.nil_append, length] at verified
  rw [runPositions, sortPositions_eq nonempty, minus_eq positive]
  apply liftM_bind_eq
  rw [pure_bind, verified]
  exact liftM_bind_eq rfl

end BranchSim.Workload.BubbleSort
