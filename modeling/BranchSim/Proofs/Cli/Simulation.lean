import BranchSim.Proofs.Cli.Task
import BranchSim.Proofs.Config.Document
import BranchSim.Proofs.Predictor.Reset
import BranchSim.Proofs.Report

namespace BranchSim

theorem Config.validate_of_ofFile {content : Except FileError (List Char)} {c : Config}
    (read : ofFile content = .ok c) : c.validate = .ok () := by
  unfold ofFile at read
  split at read
  · cases read
  · split at read
    · exact validate_of_ofOctets read
    · cases read

namespace Cli

section

variable {m : Type → Type} [Monad m] (files : FileSystem m)

def loadInputs (source : Source) (config : Option String) : Task m (Config × List Event) := do
  let c ← loadConfig files config
  let events ← loadEvents files source
  return (c, events)

variable [LawfulMonad m]

theorem perform_run (source : Source) (config : Option String) (predictor : Option PredictorKind)
    (latency : Option UInt64) (sections : List Section) :
    (Command.run source config predictor latency sections).perform files =
      loadInputs files source config >>= fun (c, events) =>
        printRun (override c predictor latency) events sections := by
  simp only [Command.perform, loadInputs, bind_assoc, pure_bind]

theorem perform_compare (source : Source) (config : Option String) :
    (Command.compare source config).perform files =
      loadInputs files source config >>= fun (c, events) => printComparison c events := by
  simp only [Command.perform, loadInputs, bind_assoc, pure_bind]

end

section

variable {σ : Type} (files : FileSystem (StateM σ))

theorem loads_config (config : Option String) :
    Loads (loadConfig files config) (·.validate = .ok ()) := by
  cases config with
  | none => exact loads_pure (by decide)
  | some path =>
      refine (loads_announce _).bind fun _ _ => (loads_access _).bind fun content _ => ?_
      exact loads_attempt fun c read => Config.validate_of_ofFile read

theorem loads_events (source : Source) : Loads (loadEvents files source) fun _ => True := by
  cases source with
  | trace path =>
      refine (loads_announce _).bind fun _ _ => (loads_access _).bind fun content _ => ?_
      exact loads_attempt fun _ _ => trivial
  | workload w => exact (loads_announce _).bind fun _ _ => loads_pure trivial

theorem runFrom_loadInputs {source : Source} {config : Option String} {c : Config}
    {events : List Event} {console console' console'' : Console} {s s' s'' : σ}
    (first : (loadConfig files config).runFrom console s = ((.ok c, console'), s'))
    (second : (loadEvents files source).runFrom console' s' = ((.ok events, console''), s'')) :
    (loadInputs files source config).runFrom console s = ((.ok (c, events), console''), s'') := by
  rw [loadInputs, runFrom_bind, first]
  dsimp only
  rw [runFrom_bind, second]
  rfl

theorem loads_inputs (source : Source) (config : Option String) :
    Loads (loadInputs files source config) (·.1.validate = .ok ()) :=
  (loads_config files config).bind fun _ valid =>
    (loads_events files source).bind fun _ _ => loads_pure valid

end

section

variable {σ : Type} {c : Config}

def alone (c : Config) (events : List Event) (kind : PredictorKind) : Stats :=
  simulate (.ofPredictor (.fresh c.predictor kind) c.general) events

theorem prints_lines (ls : List String) :
    Prints (ls.forM fun line => print (.line line) : Task (StateM σ) Unit) (ls.map .line) none :=
  prints_forM fun line _ => prints_print (.line line)

theorem prints_newSimulator (valid : c.validate = .ok ())
    (reservable : Simulator.Reservable c.general) (kind : PredictorKind)
    {f : Simulator → Task (StateM σ) Unit} {out : List Printed} {failure : Option Failure}
    (rest : Prints (f (.ofPredictor (.fresh c.predictor kind) c.general)) out failure) :
    Prints (newSimulator kind c >>= f) out failure := by
  rw [newSimulator, bind_assoc]
  exact Prints.attempt (Predictor.ofKind_of_validate valid kind)
    (Prints.attempt (if_pos reservable) rest)

theorem prints_newSimulator_of_no_room (valid : c.validate = .ok ())
    (beyond : ¬ Simulator.Reservable c.general) (kind : PredictorKind)
    (f : Simulator → Task (StateM σ) Unit) :
    Prints (newSimulator kind c >>= f) [] (some .capacity) := by
  rw [newSimulator, bind_assoc]
  exact Prints.attempt (Predictor.ofKind_of_validate valid kind)
    (prints_attempt_of_error (if_neg beyond))

theorem prints_run (valid : c.validate = .ok ()) (reservable : Simulator.Reservable c.general)
    (events : List Event) (sections : List Section) :
    Prints (printRun c events sections : Task (StateM σ) Unit)
      ((heading c).map .line ++ [.report sections (alone c events c.predictor.kind)]) none := by
  refine prints_newSimulator valid reservable _ ?_
  exact (prints_lines (heading c)).andThen (prints_print _)

theorem prints_run_of_no_room (valid : c.validate = .ok ())
    (beyond : ¬ Simulator.Reservable c.general) (events : List Event) (sections : List Section) :
    Prints (printRun c events sections : Task (StateM σ) Unit) [] (some .capacity) :=
  prints_newSimulator_of_no_room valid beyond c.predictor.kind _

theorem prints_comparison (valid : c.validate = .ok ())
    (reservable : Simulator.Reservable c.general) (events : List Event) :
    Prints (printComparison c events : Task (StateM σ) Unit)
      ((compareHeader ::
        PredictorKind.all.map fun kind => compareRow kind (alone c events kind)).map .line)
      none := by
  rw [List.map_cons, List.map_map]
  refine (prints_print _).andThen (prints_forM fun kind _ => ?_)
  exact prints_newSimulator valid reservable kind (prints_print _)

theorem prints_comparison_of_no_room (valid : c.validate = .ok ())
    (beyond : ¬ Simulator.Reservable c.general) (events : List Event) :
    Prints (printComparison c events : Task (StateM σ) Unit) ([compareHeader].map .line)
      (some .capacity) := by
  refine (prints_print _).andThen ?_
  rw [PredictorKind.all, List.forM, bind_assoc]
  exact prints_newSimulator_of_no_room valid beyond .perceptron _

theorem exists_prints_run (valid : c.validate = .ok ()) (events : List Event)
    (sections : List Section) :
    ∃ out failure, Prints (printRun c events sections : Task (StateM σ) Unit) out failure ∧
      ∀ e ∈ failure, e = .capacity := by
  by_cases reservable : Simulator.Reservable c.general
  · exact ⟨_, none, prints_run valid reservable events sections, nofun⟩
  · exact ⟨[], some .capacity, prints_run_of_no_room valid reservable events sections,
      fun _ same => (Option.some.inj same).symm⟩

theorem exists_prints_comparison (valid : c.validate = .ok ()) (events : List Event) :
    ∃ (ls : List String) (failure : _),
      Prints (printComparison c events : Task (StateM σ) Unit) (ls.map .line) failure ∧
        ∀ e ∈ failure, e = .capacity := by
  by_cases reservable : Simulator.Reservable c.general
  · exact ⟨_, none, prints_comparison valid reservable events, nofun⟩
  · exact ⟨[compareHeader], some .capacity, prints_comparison_of_no_room valid reservable events,
      fun _ same => (Option.some.inj same).symm⟩

def Printed.lines (clock : Clock) : Printed → List String
  | line s => [s]
  | report sections s => Report.lines clock (sections.map Section.name) s

theorem text_eq_lines (outcome : Outcome) (clock : Clock) :
    outcome.text clock = Column.lines (outcome.console.printed.flatMap (Printed.lines clock)) := by
  rw [Outcome.text]
  induction outcome.console.printed with
  | nil => rfl
  | cons p ps ih =>
      have first : p.text clock = Column.lines (p.lines clock) := by
        cases p with
        | line s =>
            rw [Printed.lines, Column.lines, List.map_singleton, String.join_cons, String.join_nil,
              String.append_empty]
            rfl
        | report sections s => rfl
      rw [List.map_cons, String.join_cons, ih, first, List.flatMap_cons, Column.lines_append]

theorem flatMap_lines (clock : Clock) (ls : List String) :
    (ls.map Printed.line).flatMap (Printed.lines clock) = ls := by
  rw [List.flatMap_map]
  exact List.flatMap_singleton' ls

theorem text_of_lines (ls : List String) (console : Console) (failure : Option Failure)
    (clock : Clock) :
    Outcome.text ⟨{ console with printed := ls.map .line }, failure⟩ clock = Column.lines ls := by
  rw [text_eq_lines, flatMap_lines]

theorem text_of_lines_and_report (ls : List String) (sections : List Section) (stats : Stats)
    (console : Console) (failure : Option Failure) (clock : Clock) :
    Outcome.text ⟨{ console with printed := ls.map .line ++ [.report sections stats] }, failure⟩
      clock = Column.lines (ls ++ Report.lines clock (sections.map Section.name) stats) := by
  rw [text_eq_lines, List.flatMap_append, flatMap_lines, List.flatMap_singleton, Printed.lines]

variable {files : FileSystem (StateM σ)} {source : Source} {config : Option String} {s s' : σ}
  {events : List Event} {console : Console}

theorem execute_of_prints {command : Command} {f : Config × List Event → Task (StateM σ) Unit}
    {out : List Printed} {failure : Option Failure}
    (performs : command.perform files = loadInputs files source config >>= f)
    (loaded : (loadInputs files source config).runFrom {} s = ((.ok (c, events), console), s'))
    (prints : c.validate = .ok () → Prints (f (c, events)) out failure) :
    (command.execute files).run s = (⟨{ console with printed := out }, failure⟩, s') := by
  obtain ⟨silent, valid⟩ := loads_inputs files source config {} s
  rw [loaded] at silent valid
  have nothing : console.printed = [] := silent
  rw [run_execute, performs, runFrom_bind, loaded]
  simp only [prints (valid _ rfl) _ _, nothing, List.nil_append]
  cases failure with
  | none => rfl
  | some failure => rfl

theorem execute_run
    (loaded : (loadInputs files source config).runFrom {} s = ((.ok (c, events), console), s'))
    (predictor : Option PredictorKind) (latency : Option UInt64) (sections : List Section)
    (reservable : Simulator.Reservable (override c predictor latency).general) :
    let c' := override c predictor latency
    ((Command.run source config predictor latency sections).execute files).run s =
      (⟨{ console with printed := (heading c').map .line ++
        [.report sections (alone c' events c'.predictor.kind)] }, none⟩, s') :=
  execute_of_prints (perform_run ..) loaded
    fun (valid : (override c predictor latency).validate = .ok ()) =>
      prints_run valid reservable events sections

theorem execute_run_of_no_room
    (loaded : (loadInputs files source config).runFrom {} s = ((.ok (c, events), console), s'))
    (predictor : Option PredictorKind) (latency : Option UInt64) (sections : List Section)
    (beyond : ¬ Simulator.Reservable (override c predictor latency).general) :
    ((Command.run source config predictor latency sections).execute files).run s =
      (⟨{ console with printed := [] }, some .capacity⟩, s') :=
  execute_of_prints (perform_run ..) loaded
    fun (valid : (override c predictor latency).validate = .ok ()) =>
      prints_run_of_no_room valid beyond events sections

theorem execute_compare
    (loaded : (loadInputs files source config).runFrom {} s = ((.ok (c, events), console), s'))
    (reservable : Simulator.Reservable c.general) :
    ((Command.compare source config).execute files).run s =
      (⟨{ console with printed := (compareHeader ::
        PredictorKind.all.map fun kind => compareRow kind (alone c events kind)).map .line },
          none⟩, s') :=
  execute_of_prints (perform_compare ..) loaded
    fun valid => prints_comparison valid reservable events

theorem execute_compare_of_no_room
    (loaded : (loadInputs files source config).runFrom {} s = ((.ok (c, events), console), s'))
    (beyond : ¬ Simulator.Reservable c.general) :
    ((Command.compare source config).execute files).run s =
      (⟨{ console with printed := [compareHeader].map .line }, some .capacity⟩, s') :=
  execute_of_prints (perform_compare ..) loaded
    fun valid => prints_comparison_of_no_room valid beyond events

end

end Cli

end BranchSim
