import BranchSim.Proofs.Config.Document
import BranchSim.Proofs.Json.Slots

/-!
# Given fields

A document gives some of the fields of a configuration. `Written` are its texts: every section is an
object with its fields in any order and among other members, or an array of the first of them. They
are read as the default configuration with the given fields in the place of its own.
-/

namespace BranchSim

open Json Json.Format

structure PerceptronConfig.Given where
  numPerceptrons : Option UInt64 := none
  historyLength : Option UInt64 := none
  weightBits : Option UInt32 := none
  trainingThreshold : Option UInt32 := none

structure GShareConfig.Given where
  tableBits : Option UInt64 := none
  historyBits : Option UInt64 := none

structure PredictorConfig.Given where
  kind : Option PredictorKind := none
  perceptron : Option PerceptronConfig.Given := none
  gshare : Option GShareConfig.Given := none

structure GeneralConfig.Given where
  traceBranches : Option Bool := none
  resolveLatency : Option UInt64 := none

structure Config.Given where
  general : Option GeneralConfig.Given := none
  predictor : Option PredictorConfig.Given := none

structure Config.Shape where
  config : Form := .object
  general : Form := .object
  predictor : Form := .object
  perceptron : Form := .object
  gshare : Form := .object

def PerceptronConfig.record : OfRecord PerceptronConfig.format := ⟨_, rfl⟩

def GShareConfig.record : OfRecord GShareConfig.format := ⟨_, rfl⟩

def PredictorConfig.record : OfRecord PredictorConfig.format := ⟨_, rfl⟩

def GeneralConfig.record : OfRecord GeneralConfig.format := ⟨_, rfl⟩

def Config.record : OfRecord Config.format := ⟨_, rfl⟩

theorem accepts_shown_size (w : UInt64) (v : List Char) (shown : Shown w v) :
    sizeFormat.Accepts v w := by
  rw [shown, ← write_word64 "usize"]
  exact accepts_word64 "usize" w

theorem accepts_shown_width (w : UInt32) (v : List Char) (shown : Shown w v) :
    widthFormat.Accepts v w := by
  rw [shown, ← write_word32 "u32"]
  exact accepts_word32 "u32" w

theorem accepts_shown_boolean (b : Bool) (v : List Char) (shown : Shown b v) :
    Format.boolean.Accepts v b := by
  rw [shown, ← write_boolean]
  exact accepts_boolean b

def PredictorKind.Spelled (kind : PredictorKind) (v : List Char) : Prop :=
  ∃ name, (name, kind) ∈ documentNames ∧ (Named v name.toList ∨
    ∃ m, MemberText Named m (name.toList, "null".toList) ∧ Enclosed '{' '}' [m] v)

theorem PredictorKind.accepts_spelled (kind : PredictorKind) (v : List Char)
    (spelled : kind.Spelled v) : PredictorKind.format.Accepts v kind := by
  obtain ⟨name, named, text⟩ := spelled
  have known : ∀ p ∈ documentNames, documentNames.lookup p.1 = some p.2 := by decide
  rcases text with string | ⟨m, member, enclosed⟩
  · exact (delimits_variant documentName (known _ named) string).accepts
  · exact (delimits_variant_null documentName (known _ named) member enclosed).accepts

namespace PerceptronConfig.Given

def onto (g : Given) (c : PerceptronConfig) : PerceptronConfig where
  numPerceptrons := g.numPerceptrons.getD c.numPerceptrons
  historyLength := g.historyLength.getD c.historyLength
  weightBits := g.weightBits.getD c.weightBits
  trainingThreshold := g.trainingThreshold.getD c.trainingThreshold

def all (c : PerceptronConfig) : Given where
  numPerceptrons := c.numPerceptrons
  historyLength := c.historyLength
  weightBits := c.weightBits
  trainingThreshold := c.trainingThreshold

def slots (g : Given) : List Slot := [
  .of "num_perceptrons" false g.numPerceptrons Shown,
  .of "history_length" false g.historyLength Shown,
  .of "weight_bits" false g.weightBits Shown,
  .of "training_threshold" false g.trainingThreshold Shown]

theorem complete (g : Given) : ∀ slot ∈ g.slots, slot.required → slot.right.isSome := by
  simp [slots, Slot.of]

theorem makes (g : Given) : record.type.Makes g.slots (g.onto {}) :=
  .of_matches ⟨by decide, by decide⟩
    (.cons (fits_of accepts_shown_size rfl) <| .cons (fits_of accepts_shown_size rfl) <|
      .cons (fits_of accepts_shown_width rfl) <| .cons (fits_of accepts_shown_width rfl) .nil)
    (by simp) rfl

theorem reads (g : Given) : PerceptronConfig.format.Reads g.slots (g.onto {}) :=
  g.makes.reads

end PerceptronConfig.Given

namespace GShareConfig.Given

def onto (g : Given) (c : GShareConfig) : GShareConfig where
  tableBits := g.tableBits.getD c.tableBits
  historyBits := g.historyBits.getD c.historyBits

def all (c : GShareConfig) : Given where
  tableBits := c.tableBits
  historyBits := c.historyBits

def slots (g : Given) : List Slot := [
  .of "table_bits" false g.tableBits Shown,
  .of "history_bits" false g.historyBits Shown]

theorem complete (g : Given) : ∀ slot ∈ g.slots, slot.required → slot.right.isSome := by
  simp [slots, Slot.of]

theorem makes (g : Given) : record.type.Makes g.slots (g.onto {}) :=
  .of_matches ⟨by decide, by decide⟩
    (.cons (fits_of accepts_shown_size rfl) <| .cons (fits_of accepts_shown_size rfl) .nil)
    (by simp) rfl

theorem reads (g : Given) : GShareConfig.format.Reads g.slots (g.onto {}) :=
  g.makes.reads

end GShareConfig.Given

namespace PredictorConfig.Given

def onto (g : Given) (c : PredictorConfig) : PredictorConfig where
  kind := g.kind.getD c.kind
  perceptron := (g.perceptron.map (·.onto c.perceptron)).getD c.perceptron
  gshare := (g.gshare.map (·.onto c.gshare)).getD c.gshare

def all (c : PredictorConfig) : Given where
  kind := c.kind
  perceptron := some (.all c.perceptron)
  gshare := some (.all c.gshare)

def slots (shape : Config.Shape) (g : Given) : List Slot := [
  .of "branch_predictor" false g.kind PredictorKind.Spelled,
  .nested "perceptron" false g.perceptron shape.perceptron PerceptronConfig.Given.slots,
  .nested "gshare" false g.gshare shape.gshare GShareConfig.Given.slots]

theorem complete (shape : Config.Shape) (g : Given) :
    ∀ slot ∈ g.slots shape, slot.required → slot.right.isSome := by
  simp [slots, Slot.of, Slot.nested]

theorem makes (shape : Config.Shape) (g : Given) :
    record.type.Makes (g.slots shape) (g.onto {}) :=
  .of_matches ⟨by decide, by decide⟩
    (.cons (fits_of PredictorKind.accepts_spelled rfl) <|
      .cons (fits_nested PerceptronConfig.Given.reads PerceptronConfig.Given.complete rfl) <|
        .cons (fits_nested GShareConfig.Given.reads GShareConfig.Given.complete rfl) .nil)
    (by simp) rfl

theorem reads (shape : Config.Shape) (g : Given) :
    PredictorConfig.format.Reads (g.slots shape) (g.onto {}) :=
  (g.makes shape).reads

end PredictorConfig.Given

namespace GeneralConfig.Given

def onto (g : Given) (c : GeneralConfig) : GeneralConfig where
  traceBranches := g.traceBranches.getD c.traceBranches
  resolveLatency := g.resolveLatency.getD c.resolveLatency

def all (c : GeneralConfig) : Given where
  traceBranches := c.traceBranches
  resolveLatency := c.resolveLatency

def slots (g : Given) : List Slot := [
  .of "trace_branches" false g.traceBranches Shown,
  .of "resolve_latency" false g.resolveLatency Shown]

theorem complete (g : Given) : ∀ slot ∈ g.slots, slot.required → slot.right.isSome := by
  simp [slots, Slot.of]

theorem makes (g : Given) : record.type.Makes g.slots (g.onto {}) :=
  .of_matches ⟨by decide, by decide⟩
    (.cons (fits_of accepts_shown_boolean rfl) <| .cons (fits_of accepts_shown_size rfl) .nil)
    (by simp) rfl

theorem reads (g : Given) : GeneralConfig.format.Reads g.slots (g.onto {}) :=
  g.makes.reads

end GeneralConfig.Given

namespace Config

namespace Given

def onto (g : Given) (c : Config) : Config where
  general := (g.general.map (·.onto c.general)).getD c.general
  predictor := (g.predictor.map (·.onto c.predictor)).getD c.predictor

def slots (shape : Shape) (g : Given) : List Slot := [
  .nested "general" false g.general shape.general GeneralConfig.Given.slots,
  .nested "predictor" false g.predictor shape.predictor (PredictorConfig.Given.slots shape)]

theorem complete (shape : Shape) (g : Given) :
    ∀ slot ∈ g.slots shape, slot.required → slot.right.isSome := by
  simp [slots, Slot.nested]

theorem makes (shape : Shape) (g : Given) : record.type.Makes (g.slots shape) (g.onto {}) :=
  .of_matches ⟨by decide, by decide⟩
    (.cons (fits_nested GeneralConfig.Given.reads GeneralConfig.Given.complete rfl) <|
      .cons (fits_nested (PredictorConfig.Given.reads shape) (PredictorConfig.Given.complete shape)
        rfl) .nil)
    (by simp) rfl

theorem reads (shape : Shape) (g : Given) : Config.format.Reads (g.slots shape) (g.onto {}) :=
  (g.makes shape).reads

/-- The octets give the fields, in records of the shape and between blanks. -/
def Written (shape : Shape) (g : Given) (octets : List Char) : Prop :=
  ∃ v, Padded Eq octets v ∧ shape.config.Writes (g.slots shape) v

end Given

def checked (c : Config) : Except ConfigError Config :=
  match c.validate with
  | .error e => .error (.outOfRange e)
  | .ok () => .ok c

theorem ofText_of_written {shape : Shape} {g : Given} {text : List Char}
    (written : g.Written shape (Utf8.encode text)) : ofText text = (g.onto {}).checked := by
  obtain ⟨v, padded, writes⟩ := written
  have delimits := (g.reads shape).delimits (g.complete shape) writes
  have decoded : format.decode (Utf8.encode text) = .ok (g.onto {}) :=
    delimits.accepts.decode padded
  rw [ofText, ofOctets, decoded]
  rfl

end Config

end BranchSim
