import BranchSim.Log
import BranchSim.Recorded
import BranchSim.Window

/-!
# The simulator

A branch is predicted when it is fetched and trains the predictor when it resolves, which is after
`resolveLatency` younger branches have been fetched. In between the predictor does not know its
outcome, so the prediction just before training can differ from the one made at fetch.
-/

namespace BranchSim

structure Simulator where
  predictor : Predictor
  general : GeneralConfig
  window : Window Fetched
  stats : Stats
deriving DecidableEq, Inhabited

namespace Simulator

def ofPredictor (p : Predictor) (c : GeneralConfig) : Simulator :=
  ⟨p, c, .empty, {}⟩

def ofConfig (c : Config) : Except GeometryError Simulator := do
  return ofPredictor (← Predictor.ofConfig c.predictor) c.general

/-- The octets that a branch takes while it is in flight. -/
def placeSize : Nat := 24

def maxAllocation : Nat := 0x7fffffffffffffff

/-- Whether room can be asked for one branch more than stay in flight; their number wraps. -/
abbrev Reservable (c : GeneralConfig) : Prop :=
  (c.resolveLatency + 1).toNat * placeSize ≤ maxAllocation

structure CapacityOverflow where
deriving DecidableEq, Repr

def build (p : Predictor) (c : GeneralConfig) : Except CapacityOverflow Simulator :=
  if Reservable c then .ok (ofPredictor p c) else .error {}

def creationLog (s : Simulator) : List LogRecord :=
  s.predictor.creationLog ++ [.simulatorCreated s.predictor.kind s.general.resolveLatency]

def latency (s : Simulator) : Nat :=
  s.general.resolveLatency.toNat

def inFlight (s : Simulator) : Nat :=
  s.window.size

def resolve (s : Simulator) (b : Fetched) : Recorded LogRecord Simulator where
  value := { s with
    stats := (s.stats.diverge (s.predictor.predict b.event.pc != b.predicted)).record b
    predictor := s.predictor.train b.event }
  emitted := if s.general.traceBranches then [.branchResolved b] else []

def resolveOldest (s : Simulator) : Recorded LogRecord Simulator :=
  match s.window.pop? with
  | none => pure s
  | some (b, w) => resolve { s with window := w } b

def resolveOldestN : Nat → Simulator → Recorded LogRecord Simulator
  | 0, s => pure s
  | n + 1, s => s.resolveOldest >>= resolveOldestN n

def step (s : Simulator) (e : Event) : Recorded LogRecord Simulator :=
  let s := { s with window := s.window.push ⟨e, s.predictor.predict e.pc⟩ }
  s.resolveOldestN (s.window.size - s.latency)

def drain (s : Simulator) : Recorded LogRecord Simulator :=
  s.resolveOldestN s.window.size

def steps : List Event → Simulator → Recorded LogRecord Simulator
  | [], s => pure s
  | e :: es, s => s.step e >>= steps es

def run (s : Simulator) (events : List Event) : Recorded LogRecord Simulator :=
  steps events s >>= drain

def reset (s : Simulator) : Recorded LogRecord Simulator where
  value := ofPredictor s.predictor.reset s.general
  emitted := s.predictor.resetLog

end Simulator

end BranchSim
