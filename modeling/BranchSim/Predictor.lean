import BranchSim.GShare
import BranchSim.Perceptron

namespace BranchSim

inductive Predictor
  | static
  | gshare (g : GShare)
  | perceptron (p : Perceptron)
deriving DecidableEq, Repr, Inhabited

namespace Predictor

def ofKind (kind : PredictorKind) (c : PredictorConfig) : Except GeometryError Predictor :=
  match kind with
  | .static => .ok .static
  | .gshare => gshare <$> GShare.ofConfig c.gshare
  | .perceptron => perceptron <$> Perceptron.ofConfig c.perceptron

def ofConfig (c : PredictorConfig) : Except GeometryError Predictor :=
  ofKind c.kind c

def kind : Predictor → PredictorKind
  | static => .static
  | gshare _ => .gshare
  | perceptron _ => .perceptron

def name (p : Predictor) : String :=
  p.kind.name

def predict : Predictor → Address → Bool
  | static, _ => false
  | gshare g, pc => g.predict pc
  | perceptron p, pc => p.predict pc

def train : Predictor → Event → Predictor
  | static, _ => static
  | gshare g, e => gshare (g.train e)
  | perceptron p, e => perceptron (p.train e)

def trainAll (p : Predictor) (events : List Event) : Predictor :=
  events.foldl train p

def reset : Predictor → Predictor
  | static => static
  | gshare g => gshare g.reset
  | perceptron p => perceptron p.reset

end Predictor

end BranchSim
