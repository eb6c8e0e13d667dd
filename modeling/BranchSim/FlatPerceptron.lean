import BranchSim.Perceptron

/-!
# The perceptron predictor in one table

The rows of all perceptrons lie one after the other in one table, and word arithmetic finds them
there. It wraps, so what is looked up may lie outside of the table: then there is no result.
-/

namespace BranchSim

structure FlatPerceptron where
  config : PerceptronConfig
  history : History
  table : Array Int
  historyMask : UInt64
  tableMask : UInt64
  rowSize : UInt64
  weightMin : Int
  weightMax : Int
deriving DecidableEq, Repr, Inhabited

namespace FlatPerceptron

def fresh (c : PerceptronConfig) : FlatPerceptron where
  config := c
  history := .empty
  table := Array.replicate (c.numPerceptrons * (c.historyLength + 1)).toNat 0
  historyMask := lowMask c.historyLength.toNat
  tableMask := c.numPerceptrons - 1
  rowSize := c.historyLength + 1
  weightMin := c.weightMin
  weightMax := c.weightMax

def ofConfig (c : PerceptronConfig) : Except GeometryError FlatPerceptron := do
  c.validate
  return fresh c

def index (p : FlatPerceptron) (pc : Address) : UInt64 :=
  pc.word &&& p.tableMask

def slice? (table : Array Int) (first stop : UInt64) : Option (List Int) :=
  if first ≤ stop ∧ stop.toNat ≤ table.size then
    some (table.extract first.toNat stop.toNat).toList
  else none

def row? (p : FlatPerceptron) (i : UInt64) : Option (List Int) :=
  slice? p.table (i * p.rowSize) (i * p.rowSize + p.rowSize)

/-- Unlike `row?`, does not look up a row whose first position is not a word. -/
def weights? (p : FlatPerceptron) (i : UInt64) : Option (List Int) :=
  if i.toNat * p.rowSize.toNat < UInt64.size then p.row? i else none

def inputs (p : FlatPerceptron) : List Int :=
  1 :: p.history.signs (p.rowSize.toNat - 1)

def output? (p : FlatPerceptron) (pc : Address) : Option Int :=
  (p.row? (p.index pc)).map (dot · p.inputs)

def predict? (p : FlatPerceptron) (pc : Address) : Option Bool :=
  (p.output? pc).map fun y => decide (0 ≤ y)

def write (table : Array Int) (first : Nat) : List Int → Array Int
  | [] => table
  | w :: ws => write (table.setIfInBounds first w) (first + 1) ws

def adjust (p : FlatPerceptron) (taken : Bool) (row : List Int) : List Int :=
  List.zipWith (fun w x => clamp p.weightMin p.weightMax (w + sign taken * x)) row p.inputs

def train? (p : FlatPerceptron) (e : Event) : Option FlatPerceptron := do
  let i := p.index e.pc
  let row ← p.row? i
  let y := dot row p.inputs
  let active := decide (0 ≤ y) != e.taken || y.natAbs ≤ p.config.trainingThreshold.toNat
  return { p with
    table := if active then write p.table (i * p.rowSize).toNat (p.adjust e.taken row) else p.table
    history := ⟨((p.history.word <<< 1) ||| (if e.taken then 1 else 0)) &&& p.historyMask⟩ }

def reset (p : FlatPerceptron) : FlatPerceptron :=
  { p with
    table := p.table.map fun _ => 0
    history := .empty }

end FlatPerceptron

end BranchSim
