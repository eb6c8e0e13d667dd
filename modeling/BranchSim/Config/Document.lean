import BranchSim.Config
import BranchSim.Files
import BranchSim.Json.Format

namespace BranchSim

open Json (Fault Format)
open Json.Format (Field RecordType)

inductive ConfigError
  | inaccessible (e : FileError)
  | unreadable (f : Fault)
  | outOfRange (e : GeometryError)
deriving DecidableEq, Repr

namespace PredictorKind

def documentNames : List (String × PredictorKind) :=
  [("Static", static), ("GSHARE", gshare), ("GShare", gshare), ("Gshare", gshare),
    ("Perceptron", perceptron)]

def documentName : PredictorKind → String
  | static => "Static"
  | gshare => "GShare"
  | perceptron => "Perceptron"

def format : Format PredictorKind :=
  .variants documentNames documentName

end PredictorKind

def sizeFormat : Format UInt64 := .word64 "usize"

def widthFormat : Format UInt32 := .word32 "u32"

def PerceptronConfig.format : Format PerceptronConfig := .record {
  name := "PerceptronConfig"
  initial := {}
  fields := [
    .of "num_perceptrons" false sizeFormat (·.numPerceptrons) ({ · with numPerceptrons := · }),
    .of "history_length" false sizeFormat (·.historyLength) ({ · with historyLength := · }),
    .of "weight_bits" false widthFormat (·.weightBits) ({ · with weightBits := · }),
    .of "training_threshold" false widthFormat (·.trainingThreshold)
      ({ · with trainingThreshold := · })] }

def GShareConfig.format : Format GShareConfig := .record {
  name := "GShareConfig"
  initial := {}
  fields := [
    .of "table_bits" false sizeFormat (·.tableBits) ({ · with tableBits := · }),
    .of "history_bits" false sizeFormat (·.historyBits) ({ · with historyBits := · })] }

def PredictorConfig.format : Format PredictorConfig := .record {
  name := "PredictorConfig"
  initial := {}
  fields := [
    .of "branch_predictor" false PredictorKind.format (·.kind) ({ · with kind := · }),
    .of "perceptron" false PerceptronConfig.format (·.perceptron) ({ · with perceptron := · }),
    .of "gshare" false GShareConfig.format (·.gshare) ({ · with gshare := · })] }

def GeneralConfig.format : Format GeneralConfig := .record {
  name := "GeneralConfig"
  initial := {}
  fields := [
    .of "trace_branches" false .boolean (·.traceBranches) ({ · with traceBranches := · }),
    .of "resolve_latency" false sizeFormat (·.resolveLatency) ({ · with resolveLatency := · })] }

def Config.format : Format Config := .record {
  name := "Config"
  initial := {}
  fields := [
    .of "general" false GeneralConfig.format (·.general) ({ · with general := · }),
    .of "predictor" false PredictorConfig.format (·.predictor) ({ · with predictor := · })] }

namespace Config

def ofOctets (octets : List Char) : Except ConfigError Config :=
  match format.decode octets with
  | .error f => .error (.unreadable f)
  | .ok c =>
    match c.validate with
    | .error e => .error (.outOfRange e)
    | .ok () => .ok c

def ofText (text : List Char) : Except ConfigError Config :=
  ofOctets (Utf8.encode text)

def ofFile : Except FileError (List Char) → Except ConfigError Config
  | .error e => .error (.inaccessible e)
  | .ok octets =>
    if (Utf8.decode? octets).isSome then ofOctets octets else .error (.inaccessible .invalidData)

def document (c : Config) : List Char :=
  format.encode c

end Config

end BranchSim
