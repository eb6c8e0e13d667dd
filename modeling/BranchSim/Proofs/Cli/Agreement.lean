import BranchSim.Proofs.Cli.Simulation
import Mathlib

namespace BranchSim.Cli

structure Score where
  lookups : Nat
  mispredicts : Nat
  accuracy : String

namespace Score

def of (s : Stats) : Score :=
  ⟨s.lookups, s.wrong, percent s.accuracy⟩

def row (kind : PredictorKind) (score : Score) : String :=
  Column.left 12 kind.name ++ " " ++ Column.right 10 (toString score.lookups) ++ " "
    ++ Column.right 12 (toString score.mispredicts) ++ " " ++ Column.right 9 score.accuracy ++ "%"

def lines (score : Score) : List String :=
  ["  bp.lookups             " ++ toString score.lookups,
    "  bp.mispredicts         " ++ toString score.mispredicts,
    "  bp.accuracy            " ++ score.accuracy ++ "%"]

end Score

theorem compareRow_eq_row (kind : PredictorKind) (s : Stats) :
    compareRow kind s = (Score.of s).row kind := by
  simp only [compareRow, Score.row, Score.of]

theorem branchLines_eq (s : Stats) :
    Report.branchLines s = "BRANCH PREDICTION" :: (Score.of s).lines ++
      ["  bp.divergent           " ++ toString s.divergent, Report.rule] :=
  rfl

theorem lines_of_wants_branch (clock : Clock) {request : List String} (s : Stats)
    (wanted : Report.wants request .branch) :
    ∃ before after, Report.lines clock request s =
      before ++ "BRANCH PREDICTION" :: (Score.of s).lines ++ after := by
  obtain ⟨before, after, split⟩ := Report.lines_of_wants clock s wanted
  have shown : Report.sectionLines clock s .branch = Report.branchLines s := rfl
  refine ⟨before, ["  bp.divergent           " ++ toString s.divergent, Report.rule] ++ after, ?_⟩
  rw [split, shown, branchLines_eq]
  simp only [List.append_assoc, List.cons_append, List.nil_append]

variable {σ : Type} {files : FileSystem (StateM σ)} {source : Source} {config : Option String}
  {s s' : σ} {c : Config} {events : List Event} {console : Console}

/-- Once the configuration and the stream are loaded, both commands show the score that the stream
gives for each predictor alone. Without room for a window neither gets as far as a score. -/
theorem compare_agrees_with_run
    (loaded : (loadInputs files source config).runFrom {} s = ((.ok (c, events), console), s')) :
    let score kind := Score.of (alone c events kind)
    let compared := (((Command.compare source config).execute files).run s).1
    let ran kind sections :=
      (((Command.run source config (some kind) none sections).execute files).run s).1
    (Simulator.Reservable c.general →
      (compared.failure = none ∧ ∀ clock, compared.text clock =
        Column.lines (compareHeader :: PredictorKind.all.map fun kind => (score kind).row kind)) ∧
      ∀ kind sections, (ran kind sections).failure = none ∧ ∀ clock,
        let report := Report.lines clock (sections.map Section.name) (alone c events kind)
        (ran kind sections).text clock =
          Column.lines (heading (override c (some kind) none) ++ report) ∧
        (Report.wants (sections.map Section.name) .branch → ∃ before after,
          report = before ++ "BRANCH PREDICTION" :: (score kind).lines ++ after)) ∧
    (¬ Simulator.Reservable c.general →
      (compared.failure = some .capacity ∧ ∀ clock, compared.text clock =
        Column.lines [compareHeader]) ∧
      ∀ kind sections, (ran kind sections).failure = some .capacity ∧ ∀ clock,
        (ran kind sections).text clock = "") := by
  intro score compared ran
  refine ⟨fun reservable => ⟨?_, ?_⟩, fun beyond => ⟨?_, ?_⟩⟩
  · have outcome : compared = _ := congrArg Prod.fst (execute_compare loaded reservable)
    have rows : (fun kind => compareRow kind (alone c events kind)) =
        fun kind => (score kind).row kind :=
      funext fun kind => compareRow_eq_row kind _
    rw [outcome, rows]
    exact ⟨rfl, fun clock => text_of_lines _ console none clock⟩
  · intro kind sections
    have outcome : ran kind sections = _ :=
      congrArg Prod.fst (execute_run loaded (some kind) none sections reservable)
    rw [outcome]
    refine ⟨rfl, ?_⟩
    intro clock report
    exact ⟨text_of_lines_and_report _ _ _ console none clock,
      lines_of_wants_branch clock (alone c events kind)⟩
  · have outcome : compared = _ := congrArg Prod.fst (execute_compare_of_no_room loaded beyond)
    rw [outcome]
    exact ⟨rfl, fun clock => text_of_lines _ console (some .capacity) clock⟩
  · intro kind sections
    have outcome : ran kind sections = _ :=
      congrArg Prod.fst (execute_run_of_no_room loaded (some kind) none sections beyond)
    rw [outcome]
    exact ⟨rfl, fun clock => rfl⟩

theorem compare_agrees_with_run_under_latency :
    let files := Directory.fileSystem
    let d : Directory := [("c", "\x7b\"general\":[false,1]\x7d".toList),
      ("t", "[[8,false],[8,false],[8,true],[8,true]]".toList)]
    let c : Config := { general := { resolveLatency := 1 } }
    let events : List Event := [⟨8, false⟩, ⟨8, false⟩, ⟨8, true⟩, ⟨8, true⟩]
    let score kind := Score.of (alone c events kind)
    let compared := (((Command.compare (.trace "t") (some "c")).execute files).run d).1
    let ran :=
      (((Command.run (.trace "t") (some "c") (some .perceptron) none [.branch]).execute
        files).run d).1
    (score .perceptron).lookups = 4 ∧ (score .perceptron).mispredicts = 4 ∧
      (∀ clock, compared.text clock = Column.lines [compareHeader,
        (score .perceptron).row .perceptron, (score .gshare).row .gshare,
        (score .static).row .static]) ∧
      ∀ clock, ∃ before after, ran.text clock = Column.lines (heading c ++
        (before ++ "BRANCH PREDICTION" :: (score .perceptron).lines ++ after)) := by
  intro files d c events score compared ran
  have config_leads : "c".splitOn "/" = ["c"] := by cbv
  have trace_leads : "t".splitOn "/" = ["t"] := by cbv
  have config_read : Config.ofFile (d.read "c") = .ok c := by
    rw [Directory.read, Directory.place, config_leads]
    decide +kernel
  have trace_read : Trace.ofFile (d.read "t") = .ok events := by
    rw [Directory.read, Directory.place, trace_leads]
    decide +kernel
  have first : (loadConfig files (some "c")).runFrom {} d =
      (((Config.ofFile (d.read "c")).mapError .config, ⟨[.loadingConfig "c"], []⟩), d) := rfl
  have second : (loadEvents files (.trace "t")).runFrom ⟨[.loadingConfig "c"], []⟩ d =
      (((Trace.ofFile (d.read "t")).mapError .trace,
        ⟨[.loadingConfig "c", .loadingTrace "t"], []⟩), d) := rfl
  rw [config_read] at first
  rw [trace_read] at second
  have loaded := runFrom_loadInputs files first second
  obtain ⟨⟨-, comparison⟩, runs⟩ := (compare_agrees_with_run loaded).1 (by decide)
  refine ⟨by decide +kernel, by decide +kernel, comparison, ?_⟩
  intro clock
  obtain ⟨whole, shown⟩ := (runs .perceptron [.branch]).2 clock
  obtain ⟨before, after, split⟩ := shown (by decide)
  exact ⟨before, after, split ▸ whole⟩

end BranchSim.Cli
