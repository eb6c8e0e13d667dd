import BranchSim.Workload.Fibonacci
import Mathlib.Data.Nat.Fib.Basic

namespace BranchSim.Workload

theorem fib_add_two (n : Nat) :
    fib (n + 2) = ⟨(fib (n + 1)).value + (fib n).value,
      ⟨fibSite, false⟩ :: ((fib (n + 1)).emitted ++ (fib n).emitted)⟩ := by
  rw [fib]
  apply Recorded.ext
  · rfl
  · simp

theorem value_fib (n : Nat) : (fib n).value = Nat.fib n := by
  induction n using Nat.twoStepInduction with
  | zero => rfl
  | one => rfl
  | more n first second =>
      rw [fib_add_two, second, first, Nat.fib_add_two]
      exact Nat.add_comm ..

theorem pc_of_mem_fib (n : Nat) : ∀ e ∈ (fib n).emitted, e.pc = fibSite := by
  induction n using Nat.twoStepInduction with
  | zero => exact List.forall_mem_singleton.2 rfl
  | one => exact List.forall_mem_singleton.2 rfl
  | more n first second =>
      rw [fib_add_two, List.forall_mem_cons, List.forall_mem_append]
      exact ⟨rfl, second, first⟩

theorem countP_taken_fib (n : Nat) : (fib n).emitted.countP (·.taken) = Nat.fib (n + 1) := by
  induction n using Nat.twoStepInduction with
  | zero => rfl
  | one => rfl
  | more n first second =>
      rw [fib_add_two, List.countP_cons_of_neg Bool.false_ne_true, List.countP_append, second,
        first, Nat.fib_add_two (n := n + 1)]
      exact Nat.add_comm ..

theorem countP_not_taken_fib (n : Nat) :
    (fib n).emitted.countP (!·.taken) + 1 = (fib n).emitted.countP (·.taken) := by
  induction n using Nat.twoStepInduction with
  | zero => rfl
  | one => rfl
  | more n first second =>
      rw [fib_add_two, List.countP_cons_of_pos rfl, List.countP_cons_of_neg Bool.false_ne_true,
        List.countP_append, List.countP_append, ← second, ← first]
      omega

theorem length_fib (n : Nat) : (fib n).emitted.length = 2 * Nat.fib (n + 1) - 1 := by
  have calls := List.length_eq_countP_add_countP (·.taken) (l := (fib n).emitted)
  have more := countP_not_taken_fib n
  rw [countP_taken_fib] at calls more
  simp only [Bool.not_eq_true, Bool.decide_eq_false] at calls
  omega

theorem getLast?_fib (n : Nat) : (fib n).emitted.getLast? = some ⟨fibSite, true⟩ := by
  induction n using Nat.twoStepInduction with
  | zero => rfl
  | one => rfl
  | more n first second =>
      rw [fib_add_two, List.getLast?_cons, List.getLast?_append, first]
      rfl

def fibInto (n : Int) (recorded : List Event) : Int × List Event :=
  if n ≤ 1 then
    (n, recorded ++ [⟨fibSite, true⟩])
  else
    let (a, recorded) := fibInto (n - 1) (recorded ++ [⟨fibSite, false⟩])
    let (b, recorded) := fibInto (n - 2) recorded
    (a + b, recorded)
termination_by n.toNat

theorem fibInto_eq (n : Nat) (earlier : List Event) :
    fibInto n earlier = (((fib n).value : Int), earlier ++ (fib n).emitted) := by
  induction n using Nat.twoStepInduction generalizing earlier with
  | zero =>
      rw [fibInto, if_pos (by decide)]
      rfl
  | one =>
      rw [fibInto, if_pos (by decide)]
      rfl
  | more n first second =>
      have less : ((n + 2 : Nat) : Int) - 1 = (n + 1 : Nat) := by omega
      have least : ((n + 2 : Nat) : Int) - 2 = n := by omega
      rw [fibInto, if_neg (by omega), less, least, fib_add_two]
      simp only [second, first]
      simp

/-- The value is the Fibonacci number of `n`, and the calls are told by the next one. -/
theorem fib_counts_calls (n : Nat) (earlier : List Event) :
    ∃ added, fibInto n earlier = ((Nat.fib n : Int), earlier ++ added) ∧ fib n = ⟨Nat.fib n, added⟩ ∧
      added.length = 2 * Nat.fib (n + 1) - 1 ∧ (∀ e ∈ added, e.pc = fibSite) ∧
      added.countP (·.taken) = Nat.fib (n + 1) ∧
      ∃ last, added.getLast? = some last ∧ last.taken := by
  refine ⟨(fib n).emitted, ?_, Recorded.ext (value_fib n) rfl, length_fib n, pc_of_mem_fib n,
    countP_taken_fib n, ⟨fibSite, true⟩, getLast?_fib n, rfl⟩
  rw [fibInto_eq, value_fib]

end BranchSim.Workload
