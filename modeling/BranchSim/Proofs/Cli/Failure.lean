import BranchSim.Proofs.Cli.Simulation
import Mathlib

/-!
# Failing commands

A command fails only before its first line of output, unless it runs out of room. What `run` and
`compare` build from a configuration that was loaded is in range, since loading has checked every
geometry; the check does not bound the window.
-/

namespace BranchSim.Cli

variable {σ α : Type}

/-! ## Tasks that fail -/

/-- A failure of the task leaves the output as it was, unless it is about room. -/
def FailsSilently (t : Task (StateM σ) α) : Prop :=
  ∀ console s failure, (t.runFrom console s).1.1 = .error failure → failure ≠ .capacity →
    (t.runFrom console s).1.2.printed = console.printed

theorem Prints.failsSilently {t : Task (StateM σ) Unit} {out : List Printed}
    {failure : Option Failure} (prints : Prints t out failure)
    (only : ∀ e ∈ failure, e = .capacity) : FailsSilently t := by
  intro console s e failed other
  rw [prints console s] at failed
  cases failure with
  | none => cases failed
  | some failure =>
      obtain rfl : failure = e := Except.error.inj failed
      exact absurd (only failure rfl) other

theorem Loads.failsSilently_bind {t : Task (StateM σ) α} {f : α → Task (StateM σ) Unit}
    {P : α → Prop} (loads : Loads t P)
    (prints : ∀ a, P a → ∃ out failure, Prints (f a) out failure ∧ ∀ e ∈ failure, e = .capacity) :
    FailsSilently (t >>= f) := by
  intro console s failure failed other
  obtain ⟨silent, result⟩ := loads console s
  rw [runFrom_bind] at failed ⊢
  generalize t.runFrom console s = stop at silent result failed
  obtain ⟨⟨outcome, console'⟩, s'⟩ := stop
  cases outcome with
  | error failure => exact silent
  | ok a =>
      obtain ⟨out, stops, printed, only⟩ := prints a (result a rfl)
      exact (printed.failsSilently only console' s' failure failed other).trans silent

section

variable (files : FileSystem (StateM σ))

theorem perform_record (w : Workload) (path : String) :
    (Command.record w path).perform files =
      (access (files.write path (Trace.document w.events)) >>=
        attempt (.trace ∘ .ofWrite)) >>= fun _ => print (.line (recordLine w path)) := by
  rw [bind_assoc]
  rfl

theorem failsSilently_perform (command : Command) : FailsSilently (command.perform files) := by
  cases command with
  | run source config predictor latency sections =>
      rw [perform_run]
      refine (loads_inputs files source config).failsSilently_bind fun (c, events) valid => ?_
      have override_valid : (override c predictor latency).validate = .ok () := valid
      exact exists_prints_run override_valid events sections
  | compare source config =>
      rw [perform_compare]
      refine (loads_inputs files source config).failsSilently_bind fun (c, events) valid => ?_
      obtain ⟨ls, failure, prints, only⟩ := exists_prints_comparison valid events
      exact ⟨_, failure, prints, only⟩
  | record w path =>
      rw [perform_record]
      have loads : Loads (access (files.write path (Trace.document w.events)) >>=
          attempt (.trace ∘ .ofWrite)) fun _ => True :=
        (loads_access _).bind fun _ _ => loads_attempt fun _ _ => trivial
      exact loads.failsSilently_bind fun _ _ => ⟨_, none, prints_print _, nofun⟩
  | list =>
      have prints := prints_forM fun w (_ : w ∈ Workload.all) =>
        prints_print (σ := σ) (.line (listLine w))
      exact prints.failsSilently nofun

theorem printed_of_exitStatus {command : Command} {s : σ}
    (failed : ((command.execute files).run s).1.exitStatus = 1) :
    ((command.execute files).run s).1.console.printed = [] := by
  have silent := failsSilently_perform files command {} s
  rw [run_execute] at failed ⊢
  generalize (command.perform files).runFrom {} s = stop at silent failed
  obtain ⟨⟨outcome, console⟩, s'⟩ := stop
  cases outcome with
  | error failure =>
      refine silent failure rfl fun capacity => ?_
      subst capacity
      cases failed
  | ok _ => cases failed

end

/-! ## The statement -/

theorem validate_of_loaded {c : Config}
    (loaded : c = {} ∨ ∃ content, Config.ofFile content = .ok c) : c.validate = .ok () := by
  rcases loaded with rfl | ⟨content, read⟩
  · decide
  · exact Config.validate_of_ofFile read

theorem compareHeader_eq : compareHeader = "predictor       lookups  mispredicts   accuracy" := by
  decide +kernel

/-- A command that exits with status 1 has printed nothing. A comparison that has loaded its inputs
succeeds if there is room for its windows: nothing else can go wrong after the loading. -/
theorem failing_prints_nothing (files : FileSystem (StateM σ)) :
    (∀ (command : Command) (s : σ),
      let outcome := ((command.execute files).run s).1
      outcome.exitStatus = 1 → ∀ clock, outcome.text clock = "") ∧
    (∀ source config s c events console s',
      (loadInputs files source config).runFrom {} s = ((.ok (c, events), console), s') →
      Simulator.Reservable c.general →
        let outcome := (((Command.compare source config).execute files).run s).1
        let row name kind :=
          let stats := alone c events kind
          Column.left 12 name ++ " " ++ Column.right 10 (toString stats.lookups) ++ " " ++
            Column.right 12 (toString stats.wrong) ++ " " ++
            Column.right 9 (percent stats.accuracy) ++ "%"
        outcome.exitStatus = 0 ∧ ∀ clock, outcome.text clock = Column.lines
          ["predictor       lookups  mispredicts   accuracy", row "perceptron" .perceptron,
            row "gshare" .gshare, row "static" .static]) ∧
    ∀ c, (c = {} ∨ ∃ content, Config.ofFile content = .ok c) → ∀ predictor latency,
      let c' := override c predictor latency
      ∀ kind, ∃ p, Predictor.ofKind kind c'.predictor = .ok p ∧
        (Simulator.Reservable c'.general → ∃ s, Simulator.build p c'.general = .ok s) := by
  refine ⟨?_, ?_, ?_⟩
  · intro command s outcome failed clock
    rw [Outcome.text, printed_of_exitStatus files failed]
    rfl
  · intro source config s c events console s' loaded reservable outcome row
    have executed : outcome = _ :=
      congrArg Prod.fst (execute_compare loaded reservable)
    rw [executed]
    refine ⟨rfl, fun clock => (text_of_lines _ console none clock).trans ?_⟩
    rw [compareHeader_eq]
    rfl
  · intro c loaded predictor latency c' kind
    have checked : c.validate = .ok () := validate_of_loaded loaded
    have valid : c'.validate = .ok () := checked
    exact ⟨_, Predictor.ofKind_of_validate valid kind, fun reservable =>
      ⟨_, if_pos reservable⟩⟩

/-- The geometry that is out of range is not that of the predictor which is selected. -/
theorem failing_prints_nothing_of_unselected_geometry :
    let files := Directory.fileSystem
    let d : Directory := [("c", "\x7b\"predictor\":[\"Perceptron\",[],[25]]\x7d".toList),
      ("t", "[[8,true]]".toList)]
    let failed := (((Command.run (.trace "t") (some "c") none none []).execute
      files).run d).1
    let compared := (((Command.compare (.trace "t") none).execute files).run d).1
    failed.failure = some (.geometry (.tableBits 25)) ∧ failed.exitStatus = 1 ∧
      (∀ clock, failed.text clock = "") ∧ compared.exitStatus = 0 ∧
      ∃ p, Predictor.ofKind .gshare (override {} (some .gshare) none).predictor = .ok p := by
  intro files d failed compared
  have config_leads : "c".splitOn "/" = ["c"] := by cbv
  have trace_leads : "t".splitOn "/" = ["t"] := by cbv
  have config_read : Config.ofFile (d.read "c") = .error (.outOfRange (.tableBits 25)) := by
    rw [Directory.read, Directory.place, config_leads]
    decide +kernel
  have trace_read : Trace.ofFile (d.read "t") = .ok [⟨8, true⟩] := by
    rw [Directory.read, Directory.place, trace_leads]
    decide +kernel
  have stopped : (loadConfig files (some "c")).runFrom {} d =
      (((Config.ofFile (d.read "c")).mapError .config, ⟨[.loadingConfig "c"], []⟩), d) := rfl
  have second : (loadEvents files (.trace "t")).runFrom {} d =
      (((Trace.ofFile (d.read "t")).mapError .trace, ⟨[.loadingTrace "t"], []⟩), d) := rfl
  rw [config_read] at stopped
  rw [trace_read] at second
  have failure : failed = ⟨⟨[.loadingConfig "c"], []⟩, some (.geometry (.tableBits 25))⟩ := by
    have outcome := congrArg Prod.fst
      (run_execute files (.run (.trace "t") (some "c") none none []) d)
    rw [perform_run, runFrom_bind, loadInputs, runFrom_bind, stopped] at outcome
    exact outcome
  have default : (loadConfig files none).runFrom {} d = ((.ok {}, {}), d) := rfl
  have loaded := runFrom_loadInputs files default second
  obtain ⟨silent, completes, builds⟩ := failing_prints_nothing files
  have status : failed.exitStatus = 1 := by rw [failure]; rfl
  obtain ⟨p, built, -⟩ := builds {} (.inl rfl) (some .gshare) none .gshare
  exact ⟨congrArg _ failure, status, silent _ d status,
    (completes _ _ d _ _ _ _ loaded (by decide)).1, p, built⟩

theorem compare_stops_after_header :
    let files := Directory.fileSystem
    let d : Directory := [("c", "\x7b\"general\":[false,9223372036854775807]\x7d".toList)]
    let c : Config := { general := { resolveLatency := 9223372036854775807 } }
    let compared := (((Command.compare (.workload .pattern) (some "c")).execute
      files).run d).1
    Config.ofFile (d.read "c") = .ok c ∧
      (∀ p, Simulator.build p c.general = .error {}) ∧ compared.exitStatus ≠ 0 ∧
      ∀ clock, compared.text clock =
        Column.lines ["predictor       lookups  mispredicts   accuracy"] := by
  intro files d c compared
  have leads : "c".splitOn "/" = ["c"] := by cbv
  have read : Config.ofFile (d.read "c") = .ok c := by
    rw [Directory.read, Directory.place, leads]
    decide +kernel
  have beyond : ¬ Simulator.Reservable c.general := by decide
  have first : (loadConfig files (some "c")).runFrom {} d =
      (((Config.ofFile (d.read "c")).mapError .config, ⟨[.loadingConfig "c"], []⟩), d) := rfl
  rw [read] at first
  obtain ⟨notices, second⟩ : ∃ notices, (loadEvents files (.workload .pattern)).runFrom
      ⟨[.loadingConfig "c"], []⟩ d = ((.ok Workload.pattern.events, notices), d) := ⟨_, rfl⟩
  have loaded := runFrom_loadInputs files first second
  have outcome : compared = _ := congrArg Prod.fst (execute_compare_of_no_room loaded beyond)
  rw [outcome, ← compareHeader_eq]
  exact ⟨read, fun p => if_neg beyond, nofun, fun clock => text_of_lines _ notices _ clock⟩

end BranchSim.Cli
