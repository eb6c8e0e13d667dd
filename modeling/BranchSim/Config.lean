import BranchSim.History

namespace BranchSim

inductive GeometryError
  | notPowerOfTwo (got : UInt64)
  | historyLength (got : UInt64)
  | weightBits (got : UInt32)
  | tableBits (got : UInt64)
  | historyBits (got : UInt64)
deriving DecidableEq, Repr

structure PerceptronConfig where
  numPerceptrons : UInt64 := 8
  historyLength : UInt64 := 7
  weightBits : UInt32 := 8
  trainingThreshold : UInt32 := 15
deriving DecidableEq, Repr, Inhabited

structure GShareConfig where
  tableBits : UInt64 := 10
  historyBits : UInt64 := 10
deriving DecidableEq, Repr, Inhabited

namespace PerceptronConfig

/-- One sign bit and one magnitude bit. -/
def minWeightBits : Nat := 2

def maxWeightBits : Nat := 32

def validate (c : PerceptronConfig) : Except GeometryError Unit :=
  if ¬ c.numPerceptrons.toNat.isPowerOfTwo then .error (.notPowerOfTwo c.numPerceptrons)
  else if c.historyLength.toNat = 0 ∨ History.maxWidth < c.historyLength.toNat then
    .error (.historyLength c.historyLength)
  else if c.weightBits.toNat < minWeightBits ∨ maxWeightBits < c.weightBits.toNat then
    .error (.weightBits c.weightBits)
  else .ok ()

def weightBound (c : PerceptronConfig) : Nat :=
  1 <<< (c.weightBits.toNat - 1)

def weightMin (c : PerceptronConfig) : Int :=
  -c.weightBound

def weightMax (c : PerceptronConfig) : Int :=
  c.weightBound - 1

end PerceptronConfig

namespace GShareConfig

def maxTableBits : Nat := 24

def tableSize (c : GShareConfig) : Nat :=
  1 <<< c.tableBits.toNat

def validate (c : GShareConfig) : Except GeometryError Unit :=
  if c.tableBits.toNat = 0 ∨ maxTableBits < c.tableBits.toNat then .error (.tableBits c.tableBits)
  else if c.historyBits.toNat = 0 ∨ History.maxWidth < c.historyBits.toNat then
    .error (.historyBits c.historyBits)
  else .ok ()

end GShareConfig

inductive PredictorKind
  | perceptron
  | gshare
  | static
deriving DecidableEq, Repr, Inhabited

namespace PredictorKind

def all : List PredictorKind := [perceptron, gshare, static]

def name : PredictorKind → String
  | perceptron => "perceptron"
  | gshare => "gshare"
  | static => "static"

end PredictorKind

structure PredictorConfig where
  kind : PredictorKind := .perceptron
  perceptron : PerceptronConfig := {}
  gshare : GShareConfig := {}
deriving DecidableEq, Repr, Inhabited

structure GeneralConfig where
  traceBranches : Bool := false
  /-- How many younger branches are fetched before a branch resolves. -/
  resolveLatency : UInt64 := 0
deriving DecidableEq, Repr, Inhabited

structure Config where
  general : GeneralConfig := {}
  predictor : PredictorConfig := {}
deriving DecidableEq, Repr, Inhabited

/-- Every geometry has to be in range, also that of a predictor which is not selected. -/
def Config.validate (c : Config) : Except GeometryError Unit := do
  c.predictor.perceptron.validate
  c.predictor.gshare.validate

def GeometryError.message : GeometryError → String
  | notPowerOfTwo got => s!"num_perceptrons must be a non-zero power of two, got {got}"
  | historyLength got => s!"history_length must be in 1..={History.maxWidth}, got {got}"
  | weightBits got =>
    s!"weight_bits must be in {PerceptronConfig.minWeightBits}..={PerceptronConfig.maxWeightBits}, "
      ++ s!"got {got}"
  | tableBits got =>
    s!"gshare table_bits must be in 1..={GShareConfig.maxTableBits}, got {got}"
  | historyBits got => s!"gshare history_bits must be in 1..={History.maxWidth}, got {got}"

end BranchSim
