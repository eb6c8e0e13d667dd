/-!
# The in-flight window

A first-in, first-out queue whose size is kept. Elements enter at the back of one list and leave
from the front of another, which is refilled when it runs out.
-/

namespace BranchSim

structure Window (α : Type) where
  /-- The oldest elements, oldest first. -/
  front : List α
  /-- The youngest elements, youngest first. -/
  back : List α
  size : Nat
  size_eq : size = front.length + back.length := by simp
deriving DecidableEq

namespace Window

variable {α : Type}

def empty : Window α := ⟨[], [], 0, rfl⟩

instance : Inhabited (Window α) := ⟨empty⟩

def toList (w : Window α) : List α :=
  w.front ++ w.back.reverse

def push (w : Window α) (a : α) : Window α :=
  ⟨w.front, a :: w.back, w.size + 1, by simp [w.size_eq, Nat.add_assoc]⟩

def pop? (w : Window α) : Option (α × Window α) :=
  match h : w.front with
  | a :: front =>
    some (a, ⟨front, w.back, w.size - 1, by simp [w.size_eq, h]⟩)
  | [] =>
    match hb : w.back.reverse with
    | [] => none
    | a :: front =>
      some (a, ⟨front, [], w.size - 1, by
        have := congrArg List.length hb
        simp [w.size_eq, h] at this ⊢
        omega⟩)

@[simp] theorem toList_empty : (empty : Window α).toList = [] := rfl

@[simp] theorem toList_push (w : Window α) (a : α) : (w.push a).toList = w.toList ++ [a] := by
  simp [push, toList]

theorem size_eq_length (w : Window α) : w.size = w.toList.length := by
  simp [toList, w.size_eq]

theorem pop?_eq_none {w : Window α} (h : w.pop? = none) : w.toList = [] := by
  unfold pop? at h
  split at h
  · cases h
  · split at h
    · simp_all [toList]
    · cases h

theorem toList_of_pop? {w v : Window α} {a : α} (h : w.pop? = some (a, v)) :
    w.toList = a :: v.toList := by
  unfold pop? at h
  split at h
  · cases h
    simp_all [toList]
  · split at h
    · cases h
    · cases h
      simp_all [toList]

end Window

end BranchSim
