import BranchSim.Cli.Outcome

/-!
# Tasks

A command that simulates loads its inputs, on which it prints nothing, and what it does after that
does not depend on the files. `Loads` and `Prints` say this of a task; both go through sequencing.
-/

namespace BranchSim.Cli

variable {σ α β : Type}

def Task.runFrom (t : Task (StateM σ) α) (console : Console) (s : σ) :
    (Except Failure α × Console) × σ :=
  (t.run.run console).run s

theorem runFrom_bind (t : Task (StateM σ) α) (f : α → Task (StateM σ) β) (console : Console)
    (s : σ) :
    Task.runFrom (t >>= f) console s = match t.runFrom console s with
      | ((.ok a, console), s) => (f a).runFrom console s
      | ((.error failure, console), s) => ((.error failure, console), s) := by
  simp only [Task.runFrom, ExceptT.run_bind, StateT.run_bind]
  cases (t.run.run console).run s with
  | mk stop s' =>
      obtain ⟨result, console'⟩ := stop
      cases result with
      | error failure => rfl
      | ok a => rfl

theorem runFrom_access (action : StateM σ α) (console : Console) (s : σ) :
    Task.runFrom (access action) console s = ((.ok (action.run s).1, console), (action.run s).2) :=
  rfl

theorem runFrom_attempt {ε : Type} (failure : ε → Failure) (result : Except ε α)
    (console : Console) (s : σ) :
    Task.runFrom (attempt failure result) console s = ((result.mapError failure, console), s) :=
  rfl

theorem run_execute (files : FileSystem (StateM σ)) (c : Command) (s : σ) :
    (c.execute files).run s = match (c.perform files).runFrom {} s with
      | ((.ok (), console), s) => (⟨console, none⟩, s)
      | ((.error failure, console), s) => (⟨console, some failure⟩, s) := by
  simp only [Command.execute, Task.runFrom, StateT.run_bind]
  cases ((c.perform files).run.run {}).run s with
  | mk stop s' =>
      obtain ⟨result, console⟩ := stop
      cases result with
      | error failure => rfl
      | ok _ => rfl

/-- The task prints nothing, and what it results in, if it does not fail, satisfies `P`. -/
def Loads (t : Task (StateM σ) α) (P : α → Prop) : Prop :=
  ∀ console s, (t.runFrom console s).1.2.printed = console.printed ∧
    ∀ a, (t.runFrom console s).1.1 = .ok a → P a

theorem loads_pure {P : α → Prop} {a : α} (h : P a) : Loads (pure a : Task (StateM σ) α) P := by
  intro console s
  refine ⟨rfl, ?_⟩
  intro a' result
  obtain rfl := Except.ok.inj result
  exact h

theorem loads_announce (n : Notice) : Loads (announce n : Task (StateM σ) Unit) fun _ => True :=
  fun _ _ => ⟨rfl, fun _ _ => trivial⟩

theorem loads_access (action : StateM σ α) : Loads (access action) fun _ => True :=
  fun _ _ => ⟨rfl, fun _ _ => trivial⟩

theorem loads_attempt {ε : Type} {failure : ε → Failure} {result : Except ε α} {P : α → Prop}
    (h : ∀ a, result = .ok a → P a) :
    Loads (attempt failure result : Task (StateM σ) α) P := by
  intro console s
  refine ⟨rfl, ?_⟩
  intro a succeeds
  cases result with
  | error e => cases succeeds
  | ok a' =>
      obtain rfl := Except.ok.inj succeeds
      exact h a' rfl

theorem Loads.bind {t : Task (StateM σ) α} {f : α → Task (StateM σ) β} {P : α → Prop}
    {Q : β → Prop} (first : Loads t P) (rest : ∀ a, P a → Loads (f a) Q) : Loads (t >>= f) Q := by
  intro console s
  obtain ⟨silent, result⟩ := first console s
  rw [runFrom_bind]
  generalize t.runFrom console s = stop at silent result
  obtain ⟨⟨outcome, console'⟩, s'⟩ := stop
  cases outcome with
  | error failure => exact ⟨silent, nofun⟩
  | ok a =>
      obtain ⟨silent', result'⟩ := rest a (result a rfl) console' s'
      exact ⟨silent'.trans silent, result'⟩

/-- The task prints `out`, fails with `failure` if that is given, and does nothing else. -/
def Prints (t : Task (StateM σ) Unit) (out : List Printed) (failure : Option Failure) : Prop :=
  ∀ console s, t.runFrom console s =
    ((failure.elim (.ok ()) .error, { console with printed := console.printed ++ out }), s)

theorem prints_nothing : Prints (pure () : Task (StateM σ) Unit) [] none := by
  intro console s
  rw [List.append_nil]
  rfl

theorem prints_print (p : Printed) : Prints (print p : Task (StateM σ) Unit) [p] none :=
  fun _ _ => rfl

section

variable {ε : Type} {failed : ε → Failure} {result : Except ε α} {f : α → Task (StateM σ) Unit}
  {out : List Printed} {failure : Option Failure}

theorem Prints.attempt {a : α} (succeeds : result = .ok a) (rest : Prints (f a) out failure) :
    Prints (attempt failed result >>= f) out failure := by
  intro console s
  rw [runFrom_bind, runFrom_attempt, succeeds]
  exact rest console s

theorem prints_attempt_of_error {e : ε} (fails : result = .error e) :
    Prints (attempt failed result >>= f) [] (some (failed e)) := by
  intro console s
  rw [runFrom_bind, runFrom_attempt, fails, List.append_nil]
  rfl

theorem Prints.andThen {t : Task (StateM σ) Unit} {f : Unit → Task (StateM σ) Unit}
    {out' : List Printed} (first : Prints t out none) (rest : Prints (f ()) out' failure) :
    Prints (t >>= f) (out ++ out') failure := by
  intro console s
  rw [runFrom_bind, first console s]
  simp only [Option.elim_none, rest _ _, List.append_assoc]

end

theorem prints_forM {f : α → Task (StateM σ) Unit} {out : α → Printed} {xs : List α}
    (each : ∀ x ∈ xs, Prints (f x) [out x] none) : Prints (xs.forM f) (xs.map out) none := by
  induction xs with
  | nil => exact prints_nothing
  | cons x xs ih =>
      have first := each x List.mem_cons_self
      have rest := ih fun x' member => each x' (List.mem_cons_of_mem x member)
      exact first.andThen rest

end BranchSim.Cli
