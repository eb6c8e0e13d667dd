import BranchSim.Cli.Command
import BranchSim.Config.Document
import BranchSim.Simulator
import BranchSim.Trace

namespace BranchSim.Cli

inductive Notice
  | loadingConfig (path : String)
  | loadingTrace (path : String)
  | generated (w : Workload) (branches : Nat) (checksum : Int)
deriving DecidableEq, Repr

def Notice.line : Notice → String
  | loadingConfig path => s!"bpsim: loading config path={path}"
  | loadingTrace path => s!"bpsim: loading trace path={path}"
  | generated w branches checksum =>
    s!"bpsim: workload generated workload={w.name} branches={branches} checksum={checksum}"

inductive Failure
  | config (e : ConfigError)
  | trace (e : TraceError)
  /-- The window of a simulator takes more room than there can be; this stops the program where it
  is. -/
  | capacity
deriving DecidableEq, Repr

def Failure.geometry (e : GeometryError) : Failure :=
  .config (.outOfRange e)

def fileErrorMessage : FileError → String
  | .notFound => "no such file or directory"
  | .isDirectory => "is a directory"
  | .notDirectory => "not a directory"
  | .nameTooLong => "file name too long"
  | .invalidData => "not valid UTF-8"
  | .storageFull => "no space left on device"

def faultMessage : Json.Fault → String
  | .malformed => "malformed document"
  | .truncated => "unexpected end of document"
  | .data fault => fault.message

def Failure.message : Failure → String
  | config (.inaccessible e) => "failed to read config: " ++ fileErrorMessage e
  | config (.unreadable f) => "failed to parse config: " ++ faultMessage f
  | config (.outOfRange e) => e.message
  | trace (.inaccessible e) => "trace I/O error: " ++ fileErrorMessage e
  | trace (.interrupted e) => "malformed trace: " ++ fileErrorMessage e
  | trace (.malformed f) => "malformed trace: " ++ faultMessage f
  | capacity => "capacity overflow"

def Failure.line (failure : Failure) : String :=
  if failure = .capacity then failure.message else "[!] FATAL: " ++ failure.message

inductive Printed
  | line (s : String)
  | report (sections : List Section) (s : Stats)
deriving DecidableEq

def Printed.text (clock : Clock) : Printed → String
  | line s => s ++ "\n"
  | report sections s => Report.render clock (sections.map Section.name) s

def heading (c : Config) : List String :=
  let p := c.predictor.perceptron
  s!"Predictor: {c.predictor.kind.name}  Resolve latency: {c.general.resolveLatency}" ::
    match c.predictor.kind with
    | .perceptron =>
      [s!"  Perceptrons: {p.numPerceptrons}  History: {p.historyLength}  "
        ++ s!"Weight bits: {p.weightBits}  Threshold: {p.trainingThreshold}"]
    | _ => []

def compareHeader : String :=
  Column.left 12 "predictor" ++ " " ++ Column.right 10 "lookups" ++ " "
    ++ Column.right 12 "mispredicts" ++ " " ++ Column.right 10 "accuracy"

def compareRow (kind : PredictorKind) (s : Stats) : String :=
  Column.left 12 kind.name ++ " " ++ Column.right 10 s!"{s.lookups}" ++ " "
    ++ Column.right 12 s!"{s.wrong}" ++ " " ++ Column.right 9 (percent s.accuracy) ++ "%"

def recordLine (w : Workload) (path : String) : String :=
  let r := w.run
  s!"[*] Wrote {r.emitted.length} branches of '{w.name}' to {path} (checksum {r.value})"

def listLine (w : Workload) : String :=
  "  " ++ Column.left 12 w.name ++ " " ++ w.description

def versionLine : String := "bpsim 0.3.0"

structure Console where
  notices : List Notice := []
  printed : List Printed := []
deriving DecidableEq

abbrev Task (m : Type → Type) := ExceptT Failure (StateT Console m)

section

variable {m : Type → Type} [Monad m] (files : FileSystem m)

def announce (n : Notice) : Task m Unit :=
  modify fun c => { c with notices := c.notices ++ [n] }

def print (p : Printed) : Task m Unit :=
  modify fun c => { c with printed := c.printed ++ [p] }

def access {α : Type} (action : m α) : Task m α :=
  ExceptT.lift (StateT.lift action)

def attempt {ε α : Type} (failure : ε → Failure) (result : Except ε α) : Task m α :=
  ExceptT.mk (pure (result.mapError failure))

def loadConfig : Option String → Task m Config
  | none => return {}
  | some path => do
    announce (.loadingConfig path)
    let content ← access (files.read path)
    attempt .config (Config.ofFile content)

def loadEvents : Source → Task m (List Event)
  | .trace path => do
    announce (.loadingTrace path)
    let content ← access (files.read path)
    attempt .trace (Trace.ofFile content)
  | .workload w => do
    let r := w.run
    announce (.generated w r.emitted.length r.value)
    return r.emitted

def override (c : Config) (predictor : Option PredictorKind) (latency : Option UInt64) :
    Config where
  general := { c.general with resolveLatency := latency.getD c.general.resolveLatency }
  predictor := { c.predictor with kind := predictor.getD c.predictor.kind }

def simulate (s : Simulator) (events : List Event) : Stats :=
  (s.run events).value.stats

def newSimulator (kind : PredictorKind) (c : Config) : Task m Simulator := do
  let p ← attempt .geometry (Predictor.ofKind kind c.predictor)
  attempt (fun _ => .capacity) (Simulator.build p c.general)

def printRun (c : Config) (events : List Event) (sections : List Section) : Task m Unit := do
  let s ← newSimulator c.predictor.kind c
  (heading c).forM fun line => print (.line line)
  print (.report sections (simulate s events))

def printComparison (c : Config) (events : List Event) : Task m Unit := do
  print (.line compareHeader)
  PredictorKind.all.forM fun kind => do
    let s ← newSimulator kind c
    print (.line (compareRow kind (simulate s events)))

def Command.perform : Command → Task m Unit
  | .run source config predictor latency sections => do
    let c ← loadConfig files config
    let events ← loadEvents files source
    printRun (override c predictor latency) events sections
  | .compare source config => do
    let c ← loadConfig files config
    let events ← loadEvents files source
    printComparison c events
  | .record w path => do
    attempt (.trace ∘ .ofWrite) (← access (files.write path (Trace.document w.events)))
    print (.line (recordLine w path))
  | .list => Workload.all.forM fun w => print (.line (listLine w))

structure Outcome where
  console : Console
  failure : Option Failure
deriving DecidableEq

def Outcome.exitStatus (o : Outcome) : Nat :=
  match o.failure with
  | none => 0
  | some .capacity => 101
  | some _ => 1

def Outcome.text (o : Outcome) (clock : Clock) : String :=
  String.join (o.console.printed.map (Printed.text clock))

def Command.execute (c : Command) : m Outcome := do
  match ← (c.perform files).run.run {} with
  | (.ok (), console) => return ⟨console, none⟩
  | (.error failure, console) => return ⟨console, some failure⟩

end

def misuseStatus : Nat := 2

end BranchSim.Cli
