import BranchSim.Proofs.Predictor.Register
import BranchSim.Proofs.Shared.Threads

namespace BranchSim.Shared

variable {n : Nat} {s s' : Threads n} {log : List (Made n)}

def Call.effect? : Call → Option Predictor.Operation
  | predict _ => none
  | train e | trainPredict e | trainFail e => some (.train e)
  | reset => some .reset

def Call.trained? : Call → Option Event
  | predict _ | reset => none
  | train e | trainPredict e | trainFail e => some e

def effects (calls : List Call) : List Predictor.Operation :=
  calls.filterMap Call.effect?

def trained (calls : List Call) : List Event :=
  calls.filterMap Call.trained?

theorem effects_of_no_reset {calls : List Call} (no_reset : .reset ∉ calls) :
    effects calls = (trained calls).map .train := by
  rw [effects, trained, List.map_filterMap]
  apply List.filterMap_congr
  intro c member
  cases c with
  | reset => exact absurd member no_reset
  | predict pc => rfl
  | train e => rfl
  | trainPredict e => rfl
  | trainFail e => rfl

theorem performAll_effects_cons (p : Predictor) (c : Call) (calls : List Call) :
    p.performAll (effects (c :: calls)) = (c.apply p).performAll (effects calls) := by
  cases c with
  | predict pc => rfl
  | train e => rfl
  | reset => rfl
  | trainPredict e => rfl
  | trainFail e => rfl

/-- Recovery makes the lock transparent: a call sees the predictor whether or not one before it has
failed. -/
theorem perform_eq (g : Guarded) (c : Call) :
    c.perform g = (⟨c.apply g.predictor, g.poisoned || c.fails⟩, c.answer g.predictor) := by
  have recovered : g.access = g.predictor := by
    unfold Guarded.access Guarded.lock
    cases g.poisoned with
    | true => rfl
    | false => rfl
  rw [Call.perform, recovered]

theorem shared_after (s : Threads n) (i : Fin n) (c : Call) (rest : List Call) :
    (s.after i c rest).shared = ⟨c.apply s.shared.predictor, s.shared.poisoned || c.fails⟩ := by
  rw [Threads.after, perform_eq]

theorem Run.shared_eq (run : Run s log s') :
    s'.shared = ⟨s.shared.predictor.performAll (effects (log.map (·.turn.2))),
      s.shared.poisoned || log.any (·.turn.2.fails)⟩ := by
  induction run with
  | refl s =>
      change s.shared = ⟨s.shared.predictor, s.shared.poisoned || false⟩
      rw [Bool.or_false]
  | step first later ih =>
      cases first with
      | @call i c rest next =>
          rw [ih, shared_after, List.map_cons, performAll_effects_cons, List.any_cons,
            Bool.or_assoc]

theorem Run.answer_eq {before after : List (Made n)} {m : Made n}
    (run : Run s (before ++ m :: after) s') :
    m.answer = m.turn.2.answer
      (s.shared.predictor.performAll (effects (before.map (·.turn.2)))) := by
  obtain ⟨s₁, front, back⟩ := run.append
  cases back with
  | step first later =>
      cases first with
      | call next => rw [perform_eq, front.shared_eq]

def Call.isPredict : Call → Bool
  | predict _ => true
  | _ => false

def Threads.withoutPredicts (s : Threads n) : Threads n :=
  ⟨fun i => (s.programs i).filter (!·.isPredict), s.shared⟩

theorem withoutPredicts_after_of_isPredict {i : Fin n} {c : Call} {rest : List Call}
    (next : s.programs i = c :: rest) (isPredict : c.isPredict) :
    (s.after i c rest).withoutPredicts = s.withoutPredicts := by
  have programs : (s.after i c rest).withoutPredicts.programs = s.withoutPredicts.programs := by
    funext j
    change List.filter _ ((s.after i c rest).programs j) = List.filter _ (s.programs j)
    rw [programs_after]
    split
    · rename_i own
      rw [own, next, List.filter_cons_of_neg (by simp [isPredict])]
    · rfl
  have shared : (s.after i c rest).shared = s.shared := by
    rw [shared_after]
    cases c with
    | predict pc => exact congrArg _ (Bool.or_false _)
    | train e => cases isPredict
    | reset => cases isPredict
    | trainPredict e => cases isPredict
    | trainFail e => cases isPredict
  rw [Threads.withoutPredicts, shared]
  exact congrArg (Threads.mk · s.shared) programs

theorem withoutPredicts_after (s : Threads n) (i : Fin n) (c : Call) (rest : List Call) :
    (s.after i c rest).withoutPredicts =
      s.withoutPredicts.after i c (rest.filter (!·.isPredict)) := by
  have programs : (s.after i c rest).withoutPredicts.programs =
      (s.withoutPredicts.after i c (rest.filter (!·.isPredict))).programs := by
    funext j
    change List.filter _ ((s.after i c rest).programs j) = _
    rw [programs_after, programs_after]
    split
    · rfl
    · rfl
  exact congrArg (Threads.mk · (c.perform s.shared).1) programs

/-- Predictions are invisible to all other calls: without them, these get the same answers and leave
the same behind the lock. -/
theorem Run.without_predicts (run : Run s log s') :
    Run s.withoutPredicts (log.filter (!·.turn.2.isPredict)) s'.withoutPredicts := by
  induction run with
  | refl s => exact .refl _
  | @step s _ s' _ log first later ih =>
      cases first with
      | @call i c rest next =>
          -- A prediction is left out on both sides; any other call stays the next of its thread.
          by_cases isPredict : c.isPredict
          · rw [withoutPredicts_after_of_isPredict next isPredict] at ih
            rw [List.filter_cons_of_neg (by simp [isPredict])]
            exact ih
          · have remains : s.withoutPredicts.programs i = c :: rest.filter (!·.isPredict) := by
              change (s.programs i).filter _ = _
              rw [next, List.filter_cons_of_pos (by simp [isPredict])]
            rw [withoutPredicts_after] at ih
            rw [List.filter_cons_of_pos (by simp [isPredict])]
            exact .step (.call remains) ih

theorem trained_flatMap (programs : Fin n → List Call) :
    trained ((List.finRange n).flatMap programs) =
      (List.finRange n).flatMap fun i => trained (programs i) :=
  List.filterMap_flatMap ..

def eventsOf (programs : Fin n → List Call) : List Event :=
  (List.finRange n).flatMap fun i => trained (programs i)

theorem Run.exists_perm_of_no_reset {p : Predictor} {programs : Fin n → List Call}
    (run : Run (.start p programs) log s') (done : s'.Done) (no_reset : ∀ i, .reset ∉ programs i) :
    ∃ es, es.Perm (eventsOf programs) ∧ s'.shared.predictor = p.trainAll es := by
  have perm := run.perm_of_done done
  have never : Call.reset ∉ log.map (·.turn.2) := by
    intro member
    obtain ⟨i, -, member⟩ := List.mem_flatMap.1 (perm.mem_iff.2 member)
    exact no_reset i member
  refine ⟨trained (log.map (·.turn.2)), ?_, ?_⟩
  · rw [eventsOf, ← trained_flatMap]
    exact (perm.filterMap _).symm
  · rw [run.shared_eq, effects_of_no_reset never, Predictor.performAll_map_train]
    rfl

/-- Every order that keeps the order of each thread can happen, and whichever happens, the calls act
and are answered one after the other. -/
theorem interleavings_serialized (p : Predictor) (programs : Fin n → List Call) :
    (∀ turns : List (Turn n), (∀ i, callsOf i turns <+: programs i) →
      ∃ log s, Run (.start p programs) log s ∧ log.map (·.turn) = turns) ∧
    ∀ log s, Run (.start p programs) log s →
      let calls := log.map (·.turn.2)
      (∀ i, callsOf i (log.map (·.turn)) ++ s.programs i = programs i) ∧
      s.shared = ⟨p.performAll (effects calls), calls.any Call.fails⟩ ∧
      (∀ before m after, log = before ++ m :: after →
        let now := p.performAll (effects (before.map (·.turn.2)))
        match m.turn.2 with
        | .predict pc => m.answer = .direction (now.predict pc)
        | .trainPredict e => m.answer = .direction ((now.train e).predict e.pc)
        | .train _ | .reset => m.answer = .done
        | .trainFail _ => m.answer = .failed) ∧
      Run (.start p fun i => (programs i).filter (!·.isPredict))
        (log.filter (!·.turn.2.isPredict)) s.withoutPredicts ∧
      (s.Done → calls.Perm ((List.finRange n).flatMap programs)) ∧
      (s.Done → (∀ i, .reset ∉ programs i) →
        let es := eventsOf programs
        (∀ taken h width, (∀ e ∈ es, e.taken = taken) → p.register? = some (h, width) →
          0 < width → width ≤ History.maxWidth → width ≤ es.length →
          s.shared.predictor.register? = some (.uniform width taken, width)) ∧
        ∀ e, (∀ e' ∈ es, e' = e) →
          s.shared.predictor = p.trainAll (List.replicate es.length e)) := by
  refine ⟨fun turns ordered => exists_run turns (.start p programs) ordered, ?_⟩
  intro log s run calls
  refine ⟨run.callsOf_append, ?_, ?_, run.without_predicts,
    fun done => (run.perm_of_done done).symm, ?_⟩
  · rw [run.shared_eq, List.any_map]
    exact congrArg _ (Bool.false_or _)
  · rintro before m after rfl now
    have answered : m.answer = m.turn.2.answer now := run.answer_eq
    cases call : m.turn.2 with
    | predict pc => rw [answered, call]; rfl
    | train e => rw [answered, call]; rfl
    | reset => rw [answered, call]; rfl
    | trainPredict e => rw [answered, call]; rfl
    | trainFail e => rw [answered, call]; rfl
  · intro done no_reset es
    obtain ⟨es', perm, trained⟩ := run.exists_perm_of_no_reset done no_reset
    refine ⟨?_, ?_⟩
    · intro taken h width same register positive fits long
      rw [trained]
      exact Predictor.register?_trainAll_of_uniform register positive fits
        (perm.length_eq ▸ long) fun e member => same e (perm.mem_iff.1 member)
    · intro e same
      have repeated : es' = List.replicate es.length e :=
        List.eq_replicate_iff.2 ⟨perm.length_eq, fun e' member => same e' (perm.mem_iff.1 member)⟩
      rw [trained, repeated]

theorem interleavings_serialized_across_failure :
    let p : Predictor := .gshare (.fresh ⟨2, 3⟩)
    let programs : Fin 2 → List Call := fun i =>
      if i = 0 then [.train ⟨4, true⟩, .trainFail ⟨8, true⟩]
      else [.predict 4, .trainPredict ⟨4, true⟩]
    let turns : List (Turn 2) := [(1, .predict 4), (0, .train ⟨4, true⟩), (0, .trainFail ⟨8, true⟩),
      (1, .trainPredict ⟨4, true⟩)]
    (∀ i, callsOf i turns <+: programs i) ∧ (∀ i, .reset ∉ programs i) ∧
      (∀ e ∈ eventsOf programs, e.taken = true) ∧
      ∃ log s, Run (.start p programs) log s ∧ log.map (·.turn) = turns ∧ s.Done ∧
        log.map (·.answer) = [.direction false, .done, .failed, .direction true] ∧
        s.shared.poisoned = true ∧
        s.shared.predictor.register? = some (.uniform 3 true, 3) := by
  intro p programs turns
  have ordered : ∀ i, callsOf i turns <+: programs i := by decide
  have no_reset : ∀ i, .reset ∉ programs i := by decide
  have same : ∀ e ∈ eventsOf programs, e.taken = true := by decide
  obtain ⟨follows, serialized⟩ := interleavings_serialized p programs
  obtain ⟨log, s, run, order⟩ := follows turns ordered
  obtain ⟨inOrder, shared, answers, -, -, uniform⟩ := serialized log s run
  have done : s.Done := by
    intro i
    have complete : callsOf i turns = programs i := by
      revert i
      decide
    have made := inOrder i
    rw [order, complete] at made
    exact List.append_right_eq_self.1 made
  have calls : log.map (·.turn.2) = turns.map (·.2) := by
    rw [← order, List.map_map]
    rfl
  have poisoned : s.shared.poisoned = true := by
    rw [shared, calls]
    rfl
  have answered : log.map (·.answer) = [.direction false, .done, .failed, .direction true] := by
    obtain ⟨first, log, rfl, turn₁, order⟩ := List.map_eq_cons_iff.1 order
    obtain ⟨second, log, rfl, turn₂, order⟩ := List.map_eq_cons_iff.1 order
    obtain ⟨third, log, rfl, turn₃, order⟩ := List.map_eq_cons_iff.1 order
    obtain ⟨fourth, log, rfl, turn₄, order⟩ := List.map_eq_cons_iff.1 order
    obtain rfl := List.map_eq_nil_iff.1 order
    have answer₁ := answers [] first [second, third, fourth] rfl
    have answer₂ := answers [first] second [third, fourth] rfl
    have answer₃ := answers [first, second] third [fourth] rfl
    have answer₄ := answers [first, second, third] fourth [] rfl
    -- A call is answered by the predictor that the calls before it have left.
    simp only [List.map_cons, List.map_nil, turn₁, turn₂, turn₃, turn₄]
      at answer₁ answer₂ answer₃ answer₄ ⊢
    rw [answer₁, answer₂, answer₃, answer₄]
    decide
  exact ⟨ordered, no_reset, same, log, s, run, order, done, answered, poisoned,
    (uniform done no_reset).1 true .empty 3 same rfl (by decide) (by decide) (by decide)⟩

end BranchSim.Shared
