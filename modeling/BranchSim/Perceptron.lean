import BranchSim.Config
import BranchSim.Event
import BranchSim.History

/-!
# The perceptron predictor

Each branch address selects one row of signed weights. The output is the bias plus the history
weights, each signed by its history bit; a branch is predicted taken when the output is not
negative. Training moves every weight of the row one unit toward agreement with the outcome, within
the weight range, if the prediction was wrong or the output too small. The rows are kept apart here;
`FlatPerceptron` finds them in one table.
-/

namespace BranchSim

def clamp (lo hi v : Int) : Int :=
  max lo (min hi v)

def dot : List Int → List Int → Int
  | w :: ws, x :: xs => w * x + dot ws xs
  | _, _ => 0

structure Perceptron where
  config : PerceptronConfig
  history : History
  /-- The weights of each perceptron, bias first. -/
  rows : Array (List Int)
deriving DecidableEq, Repr, Inhabited

namespace Perceptron

def fresh (c : PerceptronConfig) : Perceptron where
  config := c
  history := .empty
  rows := Array.replicate c.numPerceptrons.toNat (List.replicate (c.historyLength.toNat + 1) 0)

def ofConfig (c : PerceptronConfig) : Except GeometryError Perceptron := do
  c.validate
  return fresh c

def index (p : Perceptron) (pc : Address) : Nat :=
  pc.word.toNat % p.config.numPerceptrons.toNat

def weights? (p : Perceptron) (i : Nat) : Option (List Int) :=
  p.rows[i]?

def row (p : Perceptron) (pc : Address) : List Int :=
  (p.weights? (p.index pc)).getD []

def inputs (p : Perceptron) : List Int :=
  1 :: p.history.signs p.config.historyLength.toNat

def output (p : Perceptron) (pc : Address) : Int :=
  dot (p.row pc) p.inputs

def predict (p : Perceptron) (pc : Address) : Bool :=
  0 ≤ p.output pc

def adjusts (p : Perceptron) (e : Event) : Bool :=
  p.predict e.pc != e.taken || (p.output e.pc).natAbs ≤ p.config.trainingThreshold.toNat

def adjust (c : PerceptronConfig) (inputs : List Int) (taken : Bool) (row : List Int) : List Int :=
  List.zipWith (fun w x => clamp c.weightMin c.weightMax (w + sign taken * x)) row inputs

/-- The outcome enters the history whether or not weights change. -/
def train (p : Perceptron) (e : Event) : Perceptron :=
  { p with
    rows :=
      if p.adjusts e then p.rows.modify (p.index e.pc) (adjust p.config p.inputs e.taken)
      else p.rows
    history := p.history.push p.config.historyLength.toNat e.taken }

def reset (p : Perceptron) : Perceptron :=
  { p with
    rows := p.rows.map (·.map fun _ => 0)
    history := .empty }

end Perceptron

end BranchSim
