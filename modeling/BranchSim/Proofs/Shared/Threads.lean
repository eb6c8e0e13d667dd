import BranchSim.Shared
import Mathlib.Data.List.FinRange
import Mathlib.Data.List.Perm.Basic
import Mathlib.Logic.Function.Basic

namespace BranchSim.Shared

variable {n : Nat}

abbrev Turn (n : Nat) := Fin n × Call

structure Made (n : Nat) where
  turn : Turn n
  answer : Answer

structure Threads (n : Nat) where
  programs : Fin n → List Call
  shared : Guarded

def Threads.after (s : Threads n) (i : Fin n) (c : Call) (rest : List Call) : Threads n :=
  ⟨Function.update s.programs i rest, (c.perform s.shared).1⟩

/-- Any thread that is not done may be the next to get the lock. -/
inductive Step (s : Threads n) : Made n → Threads n → Prop
  | call {i : Fin n} {c : Call} {rest : List Call} (next : s.programs i = c :: rest) :
      Step s ⟨(i, c), (c.perform s.shared).2⟩ (s.after i c rest)

inductive Run : Threads n → List (Made n) → Threads n → Prop
  | refl (s : Threads n) : Run s [] s
  | step {s s' s'' : Threads n} {m : Made n} {log : List (Made n)} (first : Step s m s')
      (later : Run s' log s'') : Run s (m :: log) s''

def Threads.start (p : Predictor) (programs : Fin n → List Call) : Threads n :=
  ⟨programs, { predictor := p }⟩

def Threads.Done (s : Threads n) : Prop :=
  ∀ i, s.programs i = []

def callsOf (i : Fin n) (turns : List (Turn n)) : List Call :=
  (turns.filter (·.1 = i)).map (·.2)

variable {s s' : Threads n} {log : List (Made n)}

theorem programs_after (s : Threads n) (i j : Fin n) (c : Call) (rest : List Call) :
    (s.after i c rest).programs j = if j = i then rest else s.programs j :=
  Function.update_apply ..

theorem Run.append {before after : List (Made n)} (run : Run s (before ++ after) s') :
    ∃ s₁, Run s before s₁ ∧ Run s₁ after s' := by
  induction before generalizing s with
  | nil => exact ⟨s, .refl s, run⟩
  | cons m before ih =>
      cases run with
      | step first later =>
          obtain ⟨s₁, front, back⟩ := ih later
          exact ⟨s₁, .step first front, back⟩

theorem callsOf_cons (i : Fin n) (turn : Turn n) (turns : List (Turn n)) :
    callsOf i (turn :: turns) =
      if i = turn.1 then turn.2 :: callsOf i turns else callsOf i turns := by
  unfold callsOf
  by_cases own : i = turn.1
  · rw [if_pos own, List.filter_cons_of_pos (by simpa using own.symm), List.map_cons]
  · rw [if_neg own, List.filter_cons_of_neg (by simpa using Ne.symm own)]

theorem Run.callsOf_append (run : Run s log s') (i : Fin n) :
    callsOf i (log.map (·.turn)) ++ s'.programs i = s.programs i := by
  induction run with
  | refl s => rfl
  | @step s _ s'' _ log first later ih =>
      cases first with
      | @call j c rest next =>
          rw [programs_after] at ih
          rw [List.map_cons, callsOf_cons]
          by_cases own : i = j
          · rw [if_pos own] at ih ⊢
            rw [List.cons_append, ih, own, next]
          · rw [if_neg own] at ih ⊢
            exact ih

theorem exists_run (turns : List (Turn n)) (s : Threads n)
    (ordered : ∀ i, callsOf i turns <+: s.programs i) :
    ∃ log s', Run s log s' ∧ log.map (·.turn) = turns := by
  induction turns generalizing s with
  | nil => exact ⟨[], s, .refl s, rfl⟩
  | cons turn turns ih =>
      obtain ⟨i, c⟩ := turn
      have own := ordered i
      rw [callsOf_cons, if_pos rfl] at own
      obtain ⟨rest, next⟩ := own
      have ordered_after (j : Fin n) :
          callsOf j turns <+: (s.after i c (callsOf i turns ++ rest)).programs j := by
        have before := ordered j
        rw [callsOf_cons] at before
        rw [programs_after]
        by_cases here : j = i
        · rw [if_pos here, here]
          exact List.prefix_append ..
        · rw [if_neg here] at before ⊢
          exact before
      obtain ⟨log, s', later, same⟩ := ih _ ordered_after
      exact ⟨_, s', .step (.call next.symm) later, congrArg _ same⟩

theorem flatMap_finRange_perm {α : Type} {f g : Fin n → List α} {i : Fin n} {a : α}
    (here : f i = a :: g i) (elsewhere : ∀ j, j ≠ i → f j = g j) :
    ((List.finRange n).flatMap f).Perm (a :: (List.finRange n).flatMap g) := by
  obtain ⟨front, back, split⟩ := List.append_of_mem (List.mem_finRange i)
  have distinct := List.nodup_finRange n
  rw [split, List.nodup_middle, List.nodup_cons, List.mem_append, not_or] at distinct
  obtain ⟨⟨not_front, not_back⟩, -⟩ := distinct
  -- The place of `i` is the only one, so the blocks before and after it are the same for `g`.
  have same_front : front.flatMap f = front.flatMap g :=
    List.flatMap_congr fun j member => elsewhere j (ne_of_mem_of_not_mem member not_front)
  have same_back : back.flatMap f = back.flatMap g :=
    List.flatMap_congr fun j member => elsewhere j (ne_of_mem_of_not_mem member not_back)
  rw [split, List.flatMap_append, List.flatMap_append, List.flatMap_cons, List.flatMap_cons,
    same_front, same_back, here, List.cons_append]
  exact List.perm_middle

theorem Run.perm (run : Run s log s') :
    ((List.finRange n).flatMap s.programs).Perm
      (log.map (·.turn.2) ++ (List.finRange n).flatMap s'.programs) := by
  induction run with
  | refl s => exact .refl _
  | @step s _ s' _ log first later ih =>
      cases first with
      | @call i c rest next =>
          have here : s.programs i = c :: (s.after i c rest).programs i := by
            rw [programs_after, if_pos rfl, next]
          have elsewhere (j : Fin n) (other : j ≠ i) :
              s.programs j = (s.after i c rest).programs j := by
            rw [programs_after, if_neg other]
          exact (flatMap_finRange_perm here elsewhere).trans (ih.cons _)

theorem Run.perm_of_done (run : Run s log s') (done : s'.Done) :
    ((List.finRange n).flatMap s.programs).Perm (log.map (·.turn.2)) := by
  have nothing : (List.finRange n).flatMap s'.programs = [] :=
    List.flatMap_eq_nil_iff.2 fun i _ => done i
  have perm := run.perm
  rw [nothing, List.append_nil] at perm
  exact perm

end BranchSim.Shared
