import BranchSim.Config
import BranchSim.Report
import BranchSim.Workload

/-!
# Command lines

What the arguments ask for. Arguments are taken from left to right and the first that is wrong, or
that asks for help, decides; an option that takes a value stands at most once, but for the report
sections, which add up.
-/

namespace BranchSim.Cli

inductive Source
  | workload (w : Workload)
  | trace (path : String)
deriving DecidableEq, Repr

inductive Command
  | run (source : Source) (config : Option String) (predictor : Option PredictorKind)
      (latency : Option UInt64) (sections : List Section)
  | compare (source : Source) (config : Option String)
  | record (workload : Workload) (output : String)
  | list
deriving DecidableEq, Repr

inductive Request
  | command (c : Command)
  | version
  | help
deriving DecidableEq, Repr

structure Misuse where
deriving DecidableEq, Repr

inductive Opt
  | workload
  | trace
  | config
  | predictor
  | latency
  | stats
  | output
deriving DecidableEq, Repr

def Opt.long : Opt → String
  | workload => "workload"
  | trace => "trace"
  | config => "config"
  | predictor => "predictor"
  | latency => "latency"
  | stats => "stats"
  | output => "output"

def Opt.short? : Opt → Option Char
  | workload => some 'w'
  | trace => some 't'
  | config => some 'c'
  | predictor => some 'p'
  | latency => some 'l'
  | stats => none
  | output => some 'o'

inductive Given
  | help
  | option (o : Opt) (value : Option String)

def given (allowed : List Opt) (arg : String) : Except Misuse Given :=
  match arg.toList with
  | '-' :: '-' :: rest =>
    let name := String.ofList (rest.takeWhile (· ≠ '='))
    let value := match rest.dropWhile (· ≠ '=') with
      | _ :: value => some (String.ofList value)
      | [] => none
    match allowed.find? (·.long = name) with
    | some o => .ok (.option o value)
    | none => if name = "help" ∧ value = none then .ok .help else .error {}
  | '-' :: letter :: rest =>
    let value := match rest with
      | [] => none
      | '=' :: value => some (String.ofList value)
      | value => some (String.ofList value)
    match allowed.find? (·.short? = some letter) with
    | some o => .ok (.option o value)
    | none => if letter = 'h' then .ok .help else .error {}
  | _ => .error {}

def isValue (arg : String) : Bool :=
  match arg.toList with
  | '-' :: _ :: _ => false
  | _ => true

def word? (s : String) : Option UInt64 :=
  let digits := match s.toList with
    | '+' :: digits => digits
    | digits => digits
  let n := Nat.ofDigitChars 10 digits 0
  if digits ≠ [] ∧ digits.all Char.isDigit ∧ n < UInt64.size then some (UInt64.ofNat n) else none

def path? (s : String) : Option String :=
  if s.isEmpty then none else some s

def predictor? (s : String) : Option PredictorKind :=
  PredictorKind.all.find? fun k => k.name == s.map Char.toLower

def section? (s : String) : Option Section :=
  Section.all.find? fun sec => sec.name == s

structure Settings where
  workload : Option Workload := none
  trace : Option String := none
  config : Option String := none
  predictor : Option PredictorKind := none
  latency : Option UInt64 := none
  sections : List Section := []
  output : Option String := none
deriving DecidableEq, Repr

def fill {α : Type} (old new : Option α) : Option (Option α) :=
  match old, new with
  | none, some a => some (some a)
  | _, _ => none

def Settings.set (s : Settings) (o : Opt) (value : String) : Option Settings :=
  match o with
  | .workload =>
    ({ s with workload := · }) <$> fill s.workload (Workload.ofName value).toOption
  | .trace => ({ s with trace := · }) <$> fill s.trace (path? value)
  | .config => ({ s with config := · }) <$> fill s.config (path? value)
  | .predictor => ({ s with predictor := · }) <$> fill s.predictor (predictor? value)
  | .latency => ({ s with latency := · }) <$> fill s.latency (word? value)
  | .stats => (fun sec => { s with sections := s.sections ++ [sec] }) <$> section? value
  | .output => ({ s with output := · }) <$> fill s.output (path? value)

/-- Reads the arguments of a command; `none` means that help is asked for. -/
def settings (allowed : List Opt) : Settings → List String → Except Misuse (Option Settings)
  | s, [] => .ok (some s)
  | s, arg :: args =>
    if arg = "--" then if args.isEmpty then .ok (some s) else .error {}
    else
      match given allowed arg with
      | .error e => .error e
      | .ok .help => .ok none
      | .ok (.option o (some value)) =>
        match s.set o value with
        | some s => settings allowed s args
        | none => .error {}
      | .ok (.option o none) =>
        match args with
        | [] => .error {}
        | value :: args =>
          match if isValue value then s.set o value else none with
          | some s => settings allowed s args
          | none => .error {}

def Settings.source (s : Settings) : Except Misuse Source :=
  match s.workload, s.trace with
  | none, none => .ok (.workload .pattern)
  | some w, none => .ok (.workload w)
  | none, some path => .ok (.trace path)
  | some _, some _ => .error {}

def Settings.run (s : Settings) : Except Misuse Command := do
  return .run (← s.source) s.config s.predictor s.latency s.sections

def Settings.compare (s : Settings) : Except Misuse Command := do
  return .compare (← s.source) s.config

def Settings.record (s : Settings) : Except Misuse Command :=
  match s.workload, s.output with
  | some w, some path => .ok (.record w path)
  | _, _ => .error {}

def commands : List (String × List Opt × (Settings → Except Misuse Command)) :=
  [("run", [.workload, .trace, .config, .predictor, .latency, .stats], Settings.run),
    ("compare", [.workload, .trace, .config], Settings.compare),
    ("record", [.workload, .output], Settings.record),
    ("list", [], fun _ => .ok .list)]

def Request.ofArgs : List String → Except Misuse Request
  | [] => .error {}
  | "help" :: names =>
    match names with
    | [] => .ok .help
    | [name] => if name = "help" ∨ (commands.lookup name).isSome then .ok .help else .error {}
    | _ => .error {}
  | arg :: args =>
    match commands.lookup arg with
    | some (allowed, build) => do
      match ← settings allowed {} args with
      | none => return .help
      | some s => return .command (← build s)
    | none =>
      if arg = "--version" ∨ arg.startsWith "-V" then .ok .version
      else if arg = "--help" ∨ arg.startsWith "-h" then .ok .help
      else .error {}

end BranchSim.Cli
