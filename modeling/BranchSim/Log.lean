import BranchSim.Column
import BranchSim.Predictor
import BranchSim.Stats

namespace BranchSim

inductive LogRecord
  | perceptronCreated (c : PerceptronConfig)
  | perceptronReset
  | gshareCreated (c : GShareConfig)
  | simulatorCreated (kind : PredictorKind) (resolveLatency : UInt64)
  | branchResolved (b : Fetched)
deriving DecidableEq, Repr

namespace LogRecord

def line : LogRecord → String
  | perceptronCreated c =>
    s!"DEBUG perceptron predictor created num_perceptrons={c.numPerceptrons} "
      ++ s!"history_length={c.historyLength} weight_bits={c.weightBits} "
      ++ s!"training_threshold={c.trainingThreshold}"
  | perceptronReset => "DEBUG perceptron predictor reset"
  | gshareCreated c =>
    s!"DEBUG gshare predictor created table_bits={c.tableBits} history_bits={c.historyBits}"
  | simulatorCreated kind latency =>
    s!"DEBUG simulator created predictor=\"{kind.name}\" resolve_latency={latency}"
  | branchResolved b =>
    s!"TRACE branch resolved pc={Column.hex 1 b.event.pc.toNat} taken={b.event.taken} "
      ++ s!"predicted={b.predicted}"

end LogRecord

def Predictor.creationLog : Predictor → List LogRecord
  | static => []
  | gshare g => [.gshareCreated g.config]
  | perceptron p => [.perceptronCreated p.config]

def Predictor.resetLog : Predictor → List LogRecord
  | perceptron _ => [.perceptronReset]
  | _ => []

end BranchSim
