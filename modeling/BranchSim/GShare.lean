import BranchSim.Config
import BranchSim.Counter
import BranchSim.Event
import BranchSim.History

namespace BranchSim

structure GShare where
  config : GShareConfig
  history : History
  counters : Array Counter
deriving DecidableEq, Repr, Inhabited

namespace GShare

def fresh (c : GShareConfig) : GShare where
  config := c
  history := .empty
  counters := Array.replicate c.tableSize .initial

def ofConfig (c : GShareConfig) : Except GeometryError GShare := do
  c.validate
  return fresh c

def index (g : GShare) (pc : Address) : Nat :=
  (pc.word ^^^ g.history.word).toNat % g.config.tableSize

def counter (g : GShare) (pc : Address) : Counter :=
  g.counters[g.index pc]?.getD .initial

def predict (g : GShare) (pc : Address) : Bool :=
  (g.counter pc).predict

def train (g : GShare) (e : Event) : GShare :=
  { g with
    counters := g.counters.modify (g.index e.pc) (·.train e.taken)
    history := g.history.push g.config.historyBits.toNat e.taken }

def reset (g : GShare) : GShare :=
  { g with
    counters := g.counters.map fun _ => .initial
    history := .empty }

end GShare

end BranchSim
