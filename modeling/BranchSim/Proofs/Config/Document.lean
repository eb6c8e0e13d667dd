import BranchSim.Config.Document
import BranchSim.Proofs.Json.Faithful
import BranchSim.Proofs.Json.Written

namespace BranchSim

open Json.Format

theorem PredictorKind.faithful_format : PredictorKind.format.Faithful :=
  faithful_variants
    (by intro kind; cases kind <;> decide) (by intro kind; cases kind <;> decide)

theorem faithful_sizeFormat : sizeFormat.Faithful :=
  faithful_word64 "usize"

theorem faithful_widthFormat : widthFormat.Faithful :=
  faithful_word32 "u32"

theorem PerceptronConfig.faithful_format : PerceptronConfig.format.Faithful :=
  faithful_record ⟨by decide, by decide⟩
    (.cons faithful_sizeFormat.field <| .cons faithful_sizeFormat.field <|
      .cons faithful_widthFormat.field <| .cons faithful_widthFormat.field .nil)
    fun _ => rfl

theorem GShareConfig.faithful_format : GShareConfig.format.Faithful :=
  faithful_record ⟨by decide, by decide⟩
    (.cons faithful_sizeFormat.field <| .cons faithful_sizeFormat.field .nil)
    fun _ => rfl

theorem PredictorConfig.faithful_format : PredictorConfig.format.Faithful :=
  faithful_record ⟨by decide, by decide⟩
    (.cons PredictorKind.faithful_format.field <|
      .cons PerceptronConfig.faithful_format.field <|
        .cons GShareConfig.faithful_format.field .nil)
    fun _ => rfl

theorem GeneralConfig.faithful_format : GeneralConfig.format.Faithful :=
  faithful_record ⟨by decide, by decide⟩
    (.cons faithful_boolean.field <| .cons faithful_sizeFormat.field .nil)
    fun _ => rfl

def PerceptronConfig.text (c : PerceptronConfig) : String :=
  objectText [("num_perceptrons", toString c.numPerceptrons),
    ("history_length", toString c.historyLength), ("weight_bits", toString c.weightBits),
    ("training_threshold", toString c.trainingThreshold)]

def GShareConfig.text (c : GShareConfig) : String :=
  objectText [("table_bits", toString c.tableBits), ("history_bits", toString c.historyBits)]

def PredictorConfig.text (c : PredictorConfig) : String :=
  objectText [("branch_predictor", "\"" ++ c.kind.documentName ++ "\""),
    ("perceptron", c.perceptron.text), ("gshare", c.gshare.text)]

def GeneralConfig.text (c : GeneralConfig) : String :=
  objectText [("trace_branches", toString c.traceBranches),
    ("resolve_latency", toString c.resolveLatency)]

def Config.text (c : Config) : String :=
  objectText [("general", c.general.text), ("predictor", c.predictor.text)]

theorem PerceptronConfig.write_eq_text (c : PerceptronConfig) : format.write c = c.text.toList := by
  rw [text, toList_objectText]
  simp only [List.map_cons, List.map_nil, ← write_word64 "usize", ← write_word32 "u32"]
  rfl

theorem GShareConfig.write_eq_text (c : GShareConfig) : format.write c = c.text.toList := by
  rw [text, toList_objectText]
  simp only [List.map_cons, List.map_nil, ← write_word64 "usize"]
  rfl

theorem PredictorConfig.write_eq_text (c : PredictorConfig) : format.write c = c.text.toList := by
  have kind : ("\"" ++ c.kind.documentName ++ "\"").toList = PredictorKind.format.write c.kind := by
    rw [String.toList_append, String.toList_append]
    rfl
  rw [text, toList_objectText]
  simp only [List.map_cons, List.map_nil, kind, ← PerceptronConfig.write_eq_text,
    ← GShareConfig.write_eq_text]
  rfl

theorem GeneralConfig.write_eq_text (c : GeneralConfig) : format.write c = c.text.toList := by
  rw [text, toList_objectText]
  simp only [List.map_cons, List.map_nil, ← write_boolean, ← write_word64 "usize"]
  rfl

theorem Config.document_eq_text (c : Config) : c.document = c.text.toList := by
  rw [text, toList_objectText]
  simp only [List.map_cons, List.map_nil, ← GeneralConfig.write_eq_text,
    ← PredictorConfig.write_eq_text]
  rfl

namespace Config

theorem delimiting_format : format.Delimiting :=
  delimiting_record ⟨by decide, by decide⟩
    (.cons GeneralConfig.faithful_format.field <|
      .cons PredictorConfig.faithful_format.field .nil)
    fun _ => rfl

theorem faithful_format : format.Faithful :=
  delimiting_format.faithful

theorem encode_document (c : Config) : Utf8.encode c.document = c.document :=
  Utf8.encode_of_ascii (faithful_format.ascii c)

theorem validate_of_ofOctets {octets : List Char} {c : Config} (read : ofOctets octets = .ok c) :
    c.validate = .ok () := by
  unfold ofOctets at read
  split at read
  · cases read
  · split at read
    · cases read
    · rename_i valid
      obtain rfl := Except.ok.inj read
      exact valid

theorem ofOctets_of_decode_error {octets : List Char} {f : Json.Fault}
    (decoded : format.decode octets = .error f) : ofOctets octets = .error (.unreadable f) := by
  rw [ofOctets, decoded]

theorem ofOctets_document {c : Config} (valid : c.validate = .ok ()) :
    ofOctets c.document = .ok c := by
  have decoded : format.decode c.document = .ok c := faithful_format.decode_encode c
  rw [ofOctets, decoded]
  simp only [valid]

theorem ofText_document {c : Config} (valid : c.validate = .ok ()) :
    ofText c.document = .ok c := by
  rw [ofText, encode_document, ofOctets_document valid]

theorem document_round_trip :
    (∀ c : Config, c.document = c.text.toList) ∧
      (∀ text c, ofText text = .ok c → c.validate = .ok () ∧ ofText c.document = .ok c) ∧
      (∀ c, c.validate = .ok () → ofText c.document = .ok c) ∧
      ∀ text text' c c', ofText text = .ok c → ofText text' = .ok c' →
        c.document = c'.document → c = c' := by
  refine ⟨document_eq_text, ?_, ?_, ?_⟩
  · intro text c read
    have valid := validate_of_ofOctets read
    exact ⟨valid, ofText_document valid⟩
  · intro c valid
    exact ofText_document valid
  · intro text text' c c' read read' same
    exact faithful_format.encode_injective same

theorem document_round_trip_of_loose_text :
    let text := "\x7b\"predictor\" : [\"GSHARE\", \x7b\"weight_bits\": 32\x7d], \"cores\": [1],
      \"general\": \x7b\"resolve_latency\": 18446744073709551615\x7d\x7d "
    let c : Config :=
      { general := { resolveLatency := 0xffffffffffffffff },
        predictor := { kind := .gshare, perceptron := { weightBits := 32 } } }
    ofText text.toList = .ok c ∧ c.validate = .ok () ∧ ofText c.document = .ok c ∧
      ofText (document {}) = .ok {} ∧ c.document ≠ document {} := by
  intro text c
  obtain ⟨-, reads, writes, determined⟩ := document_round_trip
  have read : ofText text.toList = .ok c := by decide +kernel
  have read_default : ofText (document {}) = .ok {} := writes {} (by decide)
  obtain ⟨valid, again⟩ := reads _ _ read
  have different : c ≠ {} := by decide
  refine ⟨read, valid, again, read_default, ?_⟩
  intro same
  exact different (determined _ _ _ _ read read_default same)

end Config

end BranchSim
