import BranchSim.Proofs.Cli.Failure
import BranchSim.Proofs.Trace

namespace BranchSim.Cli

variable {σ : Type} {files : FileSystem (StateM σ)} {s : σ} {events : List Event}

def Delivers (files : FileSystem (StateM σ)) (s : σ) (source : Source) (events : List Event) :
    Prop :=
  ∀ console, ∃ notices, (loadEvents files source).runFrom console s =
    ((.ok events, ⟨notices, console.printed⟩), s)

theorem delivers_workload (files : FileSystem (StateM σ)) (s : σ) (w : Workload) :
    Delivers files s (.workload w) w.events :=
  fun _ => ⟨_, rfl⟩

theorem delivers_trace (pureReads : files.PureReads) {path : String}
    (content : ((files.read path).run s).1 = .ok (Trace.document events)) :
    Delivers files s (.trace path) events := by
  intro console
  have loaded : (loadEvents files (.trace path)).runFrom console s =
      (((Trace.ofFile ((files.read path).run s).1).mapError .trace,
        ⟨console.notices ++ [.loadingTrace path], console.printed⟩),
        ((files.read path).run s).2) := rfl
  rw [content, Trace.ofFile_document, pureReads] at loaded
  exact ⟨_, loaded⟩

theorem state_loadConfig (pureReads : files.PureReads) (config : Option String)
    (console : Console) : ((loadConfig files config).runFrom console s).2 = s := by
  cases config with
  | none => rfl
  | some path => exact pureReads path s

theorem content_of_record {path : String} (keeps : files.Keeps path) {w : Workload} {s' : σ}
    {outcome : Outcome} (recorded : ((Command.record w path).execute files).run s = (outcome, s'))
    (succeeds : outcome.exitStatus = 0) :
    ((files.read path).run s').1 = .ok (Trace.document w.events) := by
  rw [run_execute, perform_record, runFrom_bind, runFrom_bind, runFrom_access] at recorded
  cases written : (files.write path (Trace.document w.events)).run s with
  | mk result after =>
      rw [written] at recorded
      cases result with
      | error e =>
          obtain ⟨rfl, -⟩ := Prod.mk.inj recorded
          cases succeeds
      | ok _ =>
          obtain rfl : after = s' := congrArg Prod.snd recorded
          exact keeps _ _ _ written

theorem outcome_of_delivers {command : Command} {source : Source} {config : Option String}
    {f : Config × List Event → Task (StateM σ) Unit} {out : Config → List Printed}
    {failure : Config → Option Failure}
    (performs : command.perform files = loadInputs files source config >>= f)
    (prints : ∀ c, c.validate = .ok () → Prints (f (c, events)) (out c) (failure c))
    (pureReads : files.PureReads) (delivers : Delivers files s source events) :
    let outcome := ((command.execute files).run s).1
    match ((loadConfig files config).runFrom {} s).1.1 with
    | .error failure => outcome.failure = some failure ∧ outcome.console.printed = []
    | .ok c => outcome.failure = failure c ∧ outcome.console.printed = out c := by
  intro outcome
  have silent := (loads_config files config {} s).1
  have same := state_loadConfig pureReads config (s := s) {}
  cases first : (loadConfig files config).runFrom {} s with
  | mk stop s' =>
      obtain ⟨result, console⟩ := stop
      rw [first] at silent same
      -- The source is read from the files as the configuration was.
      obtain rfl : s' = s := same
      cases result with
      | error failure =>
          have failed : outcome = ⟨console, some failure⟩ := by
            have executed := congrArg Prod.fst (run_execute files command s')
            rw [performs, runFrom_bind, loadInputs, runFrom_bind, first] at executed
            exact executed
          rw [failed]
          exact ⟨rfl, silent⟩
      | ok c =>
          obtain ⟨notices, second⟩ := delivers console
          have loaded := runFrom_loadInputs files first second
          have executed : outcome = _ :=
            congrArg Prod.fst (execute_of_prints performs loaded (prints c))
          rw [executed]
          exact ⟨rfl, rfl⟩

theorem outcomes_agree {command : Source → Command} {config : Option String}
    {f : Config × List Event → Task (StateM σ) Unit} {P : List Printed → Prop}
    (performs : ∀ source, (command source).perform files = loadInputs files source config >>= f)
    (prints : ∀ c, c.validate = .ok () → ∃ out failure, P out ∧ Prints (f (c, events)) out failure)
    (nothing : P []) (pureReads : files.PureReads) {source source' : Source}
    (delivers : Delivers files s source events) (delivers' : Delivers files s source' events) :
    let outcome source := (((command source).execute files).run s).1
    (outcome source).exitStatus = (outcome source').exitStatus ∧
      (outcome source).console.printed = (outcome source').console.printed ∧
      P (outcome source).console.printed := by
  intro outcome
  have valid := (loads_config files config {} s).2
  choose! out failure shaped prints using prints
  have first := outcome_of_delivers (performs source) prints pureReads delivers
  have second := outcome_of_delivers (performs source') prints pureReads delivers'
  cases loaded : ((loadConfig files config).runFrom {} s).1.1 with
  | error failure =>
      rw [loaded] at first second
      refine ⟨?_, first.2.trans second.2.symm, first.2 ▸ nothing⟩
      rw [Outcome.exitStatus, Outcome.exitStatus, first.1, second.1]
  | ok c =>
      rw [loaded] at first second
      refine ⟨?_, first.2.trans second.2.symm, first.2 ▸ shaped c (valid c loaded)⟩
      rw [Outcome.exitStatus, Outcome.exitStatus, first.1, second.1]

theorem sameLines_printed (clock clock' : Clock) (printed : List Printed) :
    Report.SameLines clock clock' (printed.flatMap (Printed.lines clock))
      (printed.flatMap (Printed.lines clock')) := by
  induction printed with
  | nil => exact .nil
  | cons p ps ih =>
      have first : Report.SameLines clock clock' (p.lines clock) (p.lines clock') := by
        cases p with
        | line s => exact Report.sameLines_refl clock clock' [s]
        | report sections s => exact Report.sameLines_lines clock clock' _ s
      exact List.rel_append first ih

/-- After a recording has succeeded, a run on the trace and a run on the workload print the same
lines, but for those that tell the time, and the comparisons print the same. -/
theorem replay_agrees_with_workload {path : String} (keeps : files.Keeps path)
    (pureReads : files.PureReads) {w : Workload} {s' : σ} {outcome : Outcome}
    (recorded : ((Command.record w path).execute files).run s = (outcome, s'))
    (succeeds : outcome.exitStatus = 0) :
    (∀ config predictor latency sections,
      let ran source :=
        (((Command.run source config predictor latency sections).execute files).run s').1
      (ran (.trace path)).exitStatus = (ran (.workload w)).exitStatus ∧
        ∀ clock clock', ∃ ls ls', (ran (.trace path)).text clock = Column.lines ls ∧
          (ran (.workload w)).text clock' = Column.lines ls' ∧
          Report.SameLines clock clock' ls ls') ∧
    ∀ config,
      let compared source := (((Command.compare source config).execute files).run s').1
      (compared (.trace path)).exitStatus = (compared (.workload w)).exitStatus ∧
        ∀ clock clock',
          (compared (.trace path)).text clock = (compared (.workload w)).text clock' := by
  have replayed := delivers_trace pureReads (content_of_record keeps recorded succeeds)
  have direct := delivers_workload files s' w
  refine ⟨?_, ?_⟩
  · intro config predictor latency sections ran
    obtain ⟨status, printed, -⟩ := outcomes_agree (P := fun _ => True)
      (fun source => perform_run files source config predictor latency sections)
      (fun c (valid : (override c predictor latency).validate = .ok ()) => by
        obtain ⟨out, failure, prints, -⟩ := exists_prints_run valid w.events sections
        exact ⟨out, failure, trivial, prints⟩)
      trivial pureReads replayed direct
    refine ⟨status, fun clock clock' => ?_⟩
    refine ⟨_, _, text_eq_lines _ clock, text_eq_lines _ clock', ?_⟩
    rw [printed]
    exact sameLines_printed clock clock' _
  · intro config compared
    obtain ⟨status, printed, ls, lines⟩ := outcomes_agree
      (P := fun out => ∃ ls : List String, out = ls.map .line)
      (fun source => perform_compare files source config)
      (fun c valid => by
        obtain ⟨ls, failure, prints, -⟩ := exists_prints_comparison valid w.events
        exact ⟨_, failure, ⟨ls, rfl⟩, prints⟩)
      ⟨[], rfl⟩ pureReads replayed direct
    refine ⟨status, fun clock clock' => ?_⟩
    rw [text_eq_lines, text_eq_lines, ← printed, lines, flatMap_lines, flatMap_lines]

theorem replay_agrees_with_workload_over_old_trace :
    let files := Directory.fileSystem
    let d : Directory :=
      [("t", "[[8,true]]".toList), ("c", "\x7b\"predictor\":[\"GShare\"]\x7d".toList)]
    let recorded := ((Command.record .factorial "t").execute files).run d
    let ran source :=
      (((Command.run source (some "c") none (some 3) [.summary]).execute files).run recorded.2).1
    let compared source :=
      (((Command.compare source (some "c")).execute files).run recorded.2).1
    recorded.1.exitStatus = 0 ∧
      (ran (.trace "t")).exitStatus = (ran (.workload .factorial)).exitStatus ∧
      ∀ clock,
        (compared (.trace "t")).text clock = (compared (.workload .factorial)).text clock := by
  intro files d recorded ran compared
  have leads : Directory.place "t" = .name "t" false := by
    have parts : "t".splitOn "/" = ["t"] := by cbv
    rw [Directory.place, parts]
    decide
  have regular : Directory.place "t" ≠ .nullDevice := by
    rw [leads]
    decide
  have saved : d.write "t" (Trace.document Workload.factorial.events) =
      .ok (d.insert "t" (Trace.document Workload.factorial.events)) := by
    rw [Directory.write, leads]
  have succeeds : recorded.1.exitStatus = 0 := by
    have executed := run_execute files (.record .factorial "t") d
    rw [perform_record, runFrom_bind, runFrom_bind, runFrom_access, Directory.run_write, saved]
      at executed
    exact congrArg (·.1.exitStatus) executed
  have executed : ((Command.record .factorial "t").execute files).run d =
      (recorded.1, recorded.2) := rfl
  obtain ⟨runs, comparisons⟩ := replay_agrees_with_workload (Directory.keeps_fileSystem regular)
    Directory.pureReads_fileSystem executed succeeds
  exact ⟨succeeds, (runs (some "c") none (some 3) [.summary]).1,
    fun clock => (comparisons (some "c")).2 clock clock⟩

end BranchSim.Cli
