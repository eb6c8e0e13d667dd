import BranchSim.Proofs.Config.Given
import BranchSim.Proofs.Json.Respelled
import BranchSim.Proofs.Trace.Incomplete

namespace BranchSim

open Json Json.Format

namespace Json

theorem shown_ofNat_word64 {n : Nat} (fits : n < UInt64.size) :
    Shown (UInt64.ofNat n) = (· = Nat.toDigits 10 n) := by
  have digits : (toString (UInt64.ofNat n)).toList = Nat.toDigits 10 n := by
    rw [← write_word64 "usize"]
    exact congrArg (Nat.toDigits 10) (UInt64.toNat_ofNat_of_lt' fits)
  funext v
  rw [Shown, digits]

theorem shown_ofNat_word32 {n : Nat} (fits : n < UInt32.size) :
    Shown (UInt32.ofNat n) = (· = Nat.toDigits 10 n) := by
  have digits : (toString (UInt32.ofNat n)).toList = Nat.toDigits 10 n := by
    rw [← write_word32 "u32"]
    exact congrArg (Nat.toDigits 10) (UInt32.toNat_ofNat_of_lt' fits)
  funext v
  rw [Shown, digits]

end Json

namespace Config

inductive IntegerField
  | resolveLatency
  | numPerceptrons
  | historyLength
  | weightBits
  | trainingThreshold
  | tableBits
  | historyBits
deriving DecidableEq, Repr

def Given.withGeneral (g : Given) (change : GeneralConfig.Given → GeneralConfig.Given) : Given :=
  { g with general := some (change (g.general.getD {})) }

def Given.withPredictor (g : Given) (change : PredictorConfig.Given → PredictorConfig.Given) :
    Given :=
  { g with predictor := some (change (g.predictor.getD {})) }

def Given.withPerceptron (g : Given) (change : PerceptronConfig.Given → PerceptronConfig.Given) :
    Given :=
  g.withPredictor fun p => { p with perceptron := some (change (p.perceptron.getD {})) }

def Given.withGShare (g : Given) (change : GShareConfig.Given → GShareConfig.Given) : Given :=
  g.withPredictor fun p => { p with gshare := some (change (p.gshare.getD {})) }

namespace IntegerField

def key : IntegerField → String
  | resolveLatency => "resolve_latency"
  | numPerceptrons => "num_perceptrons"
  | historyLength => "history_length"
  | weightBits => "weight_bits"
  | trainingThreshold => "training_threshold"
  | tableBits => "table_bits"
  | historyBits => "history_bits"

def bound : IntegerField → Nat
  | weightBits | trainingThreshold => UInt32.size
  | _ => UInt64.size

def value (c : Config) : IntegerField → Nat
  | resolveLatency => c.general.resolveLatency.toNat
  | numPerceptrons => c.predictor.perceptron.numPerceptrons.toNat
  | historyLength => c.predictor.perceptron.historyLength.toNat
  | weightBits => c.predictor.perceptron.weightBits.toNat
  | trainingThreshold => c.predictor.perceptron.trainingThreshold.toNat
  | tableBits => c.predictor.gshare.tableBits.toNat
  | historyBits => c.predictor.gshare.historyBits.toNat

def give (g : Given) (n : Nat) : IntegerField → Given
  | resolveLatency => g.withGeneral ({ · with resolveLatency := some (.ofNat n) })
  | numPerceptrons => g.withPerceptron ({ · with numPerceptrons := some (.ofNat n) })
  | historyLength => g.withPerceptron ({ · with historyLength := some (.ofNat n) })
  | weightBits => g.withPerceptron ({ · with weightBits := some (.ofNat n) })
  | trainingThreshold => g.withPerceptron ({ · with trainingThreshold := some (.ofNat n) })
  | tableBits => g.withGShare ({ · with tableBits := some (.ofNat n) })
  | historyBits => g.withGShare ({ · with historyBits := some (.ofNat n) })

def slots (shape : Shape) (g : Given) (spelled : List Char → Prop) (field : IntegerField) :
    List Slot :=
  let p := g.predictor.getD {}
  let within (form : Form) (slots : List Slot) := form.Writes (respelled slots field.key spelled)
  match field with
  | resolveLatency =>
    respelled (g.slots shape) "general" (within shape.general (g.general.getD {}).slots)
  | numPerceptrons | historyLength | weightBits | trainingThreshold =>
    respelled (g.slots shape) "predictor" (shape.predictor.Writes
      (respelled (p.slots shape) "perceptron"
        (within shape.perceptron (p.perceptron.getD {}).slots)))
  | tableBits | historyBits =>
    respelled (g.slots shape) "predictor" (shape.predictor.Writes
      (respelled (p.slots shape) "gshare" (within shape.gshare (p.gshare.getD {}).slots)))

def WrittenWith (shape : Shape) (g : Given) (field : IntegerField) (s octets : List Char) : Prop :=
  ∃ v, Padded Eq octets v ∧ shape.config.Writes (field.slots shape g (· = s)) v

theorem value_give {field : IntegerField} (g : Given) {n : Nat} (fits : n < field.bound) :
    field.value ((field.give g n).onto {}) = n := by
  cases field with
  | weightBits => exact UInt32.toNat_ofNat_of_lt' fits
  | trainingThreshold => exact UInt32.toNat_ofNat_of_lt' fits
  | _ => exact UInt64.toNat_ofNat_of_lt' fits

theorem slots_give (shape : Shape) (g : Given) {field : IntegerField} {n : Nat}
    (fits : n < field.bound) :
    field.slots shape g (· = Nat.toDigits 10 n) = (field.give g n).slots shape := by
  cases field with
  | weightBits => rw [← shown_ofNat_word32 fits]; rfl
  | trainingThreshold => rw [← shown_ofNat_word32 fits]; rfl
  | _ => rw [← shown_ofNat_word64 fits]; rfl

section Rejected

variable {shape : Shape} {g : Given} {s v : List Char}

theorem rejects_general {f : Format.Field GeneralConfig}
    (member : f ∈ GeneralConfig.record.type.fields) (rejects : f.Rejects s)
    (writes : shape.config.Writes (respelled (g.slots shape) "general" (shape.general.Writes
      (respelled (g.general.getD {}).slots f.key (· = s)))) v) :
    Config.format.Rejects v := by
  refine (g.makes shape).rejects (List.mem_cons_self ..) (fun t writes => ?_) writes
  have within : GeneralConfig.format.Rejects t :=
    (g.general.getD {}).makes.rejects_text member rejects writes
  exact within.field

theorem rejects_predictor {f : Format.Field PredictorConfig}
    (member : f ∈ PredictorConfig.record.type.fields) {spelled : List Char → Prop}
    (rejects : ∀ t, spelled t → f.Rejects t)
    (writes : shape.config.Writes (respelled (g.slots shape) "predictor" (shape.predictor.Writes
      (respelled ((g.predictor.getD {}).slots shape) f.key spelled))) v) :
    Config.format.Rejects v := by
  refine (g.makes shape).rejects (.tail _ (List.mem_cons_self ..)) (fun t writes => ?_) writes
  have within : PredictorConfig.format.Rejects t :=
    ((g.predictor.getD {}).makes shape).rejects member rejects writes
  exact within.field

theorem rejects_perceptron {f : Format.Field PerceptronConfig}
    (member : f ∈ PerceptronConfig.record.type.fields) (rejects : f.Rejects s)
    (writes : shape.config.Writes (respelled (g.slots shape) "predictor" (shape.predictor.Writes
      (respelled ((g.predictor.getD {}).slots shape) "perceptron" (shape.perceptron.Writes
        (respelled ((g.predictor.getD {}).perceptron.getD {}).slots f.key (· = s)))))) v) :
    Config.format.Rejects v := by
  refine rejects_predictor (.tail _ (List.mem_cons_self ..)) (fun t writes => ?_) writes
  have within : PerceptronConfig.format.Rejects t :=
    ((g.predictor.getD {}).perceptron.getD {}).makes.rejects_text member rejects writes
  exact within.field

theorem rejects_gshare {f : Format.Field GShareConfig}
    (member : f ∈ GShareConfig.record.type.fields) (rejects : f.Rejects s)
    (writes : shape.config.Writes (respelled (g.slots shape) "predictor" (shape.predictor.Writes
      (respelled ((g.predictor.getD {}).slots shape) "gshare" (shape.gshare.Writes
        (respelled ((g.predictor.getD {}).gshare.getD {}).slots f.key (· = s)))))) v) :
    Config.format.Rejects v := by
  refine rejects_predictor (.tail _ (.tail _ (List.mem_cons_self ..))) (fun t writes => ?_) writes
  have within : GShareConfig.format.Rejects t :=
    ((g.predictor.getD {}).gshare.getD {}).makes.rejects_text member rejects writes
  exact within.field

end Rejected

theorem rejects_slots {shape : Shape} {g : Given} {field : IntegerField} {s v : List Char}
    (loose : LooseNumber s) (outside : Numeral s → field.bound ≤ Nat.ofDigitChars 10 s 0)
    (writes : shape.config.Writes (field.slots shape g (· = s)) v) : Config.format.Rejects v := by
  have first {ρ : Type} {f : Format.Field ρ} {fields : List (Format.Field ρ)} : f ∈ f :: fields :=
    List.mem_cons_self ..
  cases field with
  | resolveLatency =>
      exact rejects_general (.tail _ first) (rejects_word64 "usize" loose outside).field writes
  | numPerceptrons =>
      exact rejects_perceptron first (rejects_word64 "usize" loose outside).field writes
  | historyLength =>
      exact rejects_perceptron (.tail _ first) (rejects_word64 "usize" loose outside).field writes
  | weightBits =>
      exact rejects_perceptron (.tail _ (.tail _ first))
        (rejects_word32 "u32" loose outside).field writes
  | trainingThreshold =>
      exact rejects_perceptron (.tail _ (.tail _ (.tail _ first)))
        (rejects_word32 "u32" loose outside).field writes
  | tableBits =>
      exact rejects_gshare first (rejects_word64 "usize" loose outside).field writes
  | historyBits =>
      exact rejects_gshare (.tail _ first) (rejects_word64 "usize" loose outside).field writes

end IntegerField

section Reading

variable {shape : Shape} {g : Given} {field : IntegerField} {s text : List Char}

theorem ofText_of_writtenWith (written : field.WrittenWith shape g s (Utf8.encode text))
    (numeral : Numeral s) (fits : Nat.ofDigitChars 10 s 0 < field.bound) :
    ofText text = ((field.give g (Nat.ofDigitChars 10 s 0)).onto {}).checked := by
  obtain ⟨v, padded, writes⟩ := written
  rw [← numeral.toDigits_value, IntegerField.slots_give shape g fits] at writes
  exact ofText_of_written ⟨v, padded, writes⟩

theorem ofText_of_outside (written : field.WrittenWith shape g s (Utf8.encode text))
    (loose : LooseNumber s) (outside : Numeral s → field.bound ≤ Nat.ofDigitChars 10 s 0) :
    ∃ f, ofText text = .error (.unreadable f) := by
  obtain ⟨v, padded, writes⟩ := written
  obtain ⟨f, failed⟩ := (IntegerField.rejects_slots loose outside writes).decode padded
  exact ⟨f, ofOctets_of_decode_error failed⟩

end Reading

end Config

def Event.SpelledWith (s v : List Char) (taken : Bool) : Prop :=
  ∃ form : Form, form.Writes (respelled (Given.slots { taken := taken }) "pc" (· = s)) v

namespace Trace

def WrittenWith (before : List Event) (s : List Char) (taken : Bool) (after : List Event)
    (octets : List Char) : Prop :=
  ∃ v texts m later, Padded Eq octets v ∧ Enclosed '[' ']' (texts ++ m :: later) v ∧
    List.Forall₂ (Padded Event.Spelled) texts before ∧ Padded (Event.SpelledWith s) m taken ∧
      List.Forall₂ (Padded Event.Spelled) later after

variable {before after : List Event} {s octets : List Char} {taken : Bool}

theorem ofFile_of_writtenWith (written : WrittenWith before s taken after octets)
    (numeral : Numeral s) (fits : Nat.ofDigitChars 10 s 0 < UInt64.size) : ofFile (.ok octets) =
      .ok (before ++ ⟨UInt64.ofNat (Nat.ofDigitChars 10 s 0), taken⟩ :: after) := by
  obtain ⟨v, texts, m, later, padded, enclosed, first, given, second⟩ := written
  refine ofFile_of_written ⟨v, _, padded, enclosed, List.rel_append first (.cons ?_ second)⟩
  refine given.mono fun t ⟨form, writes⟩ => ⟨form, ?_⟩
  rw [← numeral.toDigits_value, ← shown_ofNat_word64 fits] at writes
  exact writes

theorem ofFile_of_outside (written : WrittenWith before s taken after octets)
    (loose : LooseNumber s) (outside : Numeral s → UInt64.size ≤ Nat.ofDigitChars 10 s 0) :
    ∃ f, ofFile (.ok octets) = .error (.malformed f) := by
  obtain ⟨v, texts, m, later, padded, enclosed, first, given, -⟩ := written
  obtain ⟨b, t, b', blank, ⟨form, writes⟩, blank', rfl⟩ := given
  have event : Event.format.Rejects t := by
    have address := rejects_word64 "u64" loose outside
    exact (Event.Given.makes _).rejects_text (List.mem_cons_self ..) address.field writes
  have padded_event : Padded Eq (b ++ (t ++ b')) t := ⟨b, t, b', blank, rfl, blank', rfl⟩
  have array := rejects_list (padded_accepts first) padded_event event enclosed
  obtain ⟨f, failed⟩ := array.decode padded
  exact ⟨f, ofFile_of_decode failed⟩

end Trace

/-- A number in the place of an integer is read if it has plain digits and the value fits, and then
exactly as its value. The configuration so read may still be out of range. -/
theorem integers_read_exactly :
    (∀ (shape : Config.Shape) (g : Config.Given) (field : Config.IntegerField)
      (s text : List Char), LooseNumber s → field.WrittenWith shape g s (Utf8.encode text) →
        let n := Nat.ofDigitChars 10 s 0
        let c := (field.give g n).onto {}
        (Numeral s ∧ n < field.bound → Config.ofText text = c.checked ∧ field.value c = n) ∧
          (¬ (Numeral s ∧ n < field.bound) → ∃ f, Config.ofText text = .error (.unreadable f))) ∧
    ∀ (before : List Event) (s : List Char) (taken : Bool) (after : List Event)
      (octets : List Char), LooseNumber s → Trace.WrittenWith before s taken after octets →
        let n := Nat.ofDigitChars 10 s 0
        let pc : Address := .ofNat n
        (Numeral s ∧ n < UInt64.size →
          Trace.ofFile (.ok octets) = .ok (before ++ ⟨pc, taken⟩ :: after) ∧ pc.toNat = n) ∧
          (¬ (Numeral s ∧ n < UInt64.size) →
            ∃ f, Trace.ofFile (.ok octets) = .error (.malformed f)) := by
  constructor
  · intro shape g field s text loose written n c
    constructor
    · rintro ⟨numeral, fits⟩
      have holds := Config.IntegerField.value_give g fits
      exact ⟨Config.ofText_of_writtenWith written numeral fits, holds⟩
    · intro outside
      exact Config.ofText_of_outside written loose fun numeral =>
        Nat.not_lt.1 fun fits => outside ⟨numeral, fits⟩
  · intro before s taken after octets loose written n pc
    constructor
    · rintro ⟨numeral, fits⟩
      exact ⟨Trace.ofFile_of_writtenWith written numeral fits, UInt64.toNat_ofNat_of_lt' fits⟩
    · intro outside
      exact Trace.ofFile_of_outside written loose fun numeral =>
        Nat.not_lt.1 fun fits => outside ⟨numeral, fits⟩

theorem integers_read_exactly_at_bounds :
    let latency (s : String) := "\x7b\"general\":\x7b\"resolve_latency\":".toList ++
      (s.toList ++ "\x7d\x7d".toList)
    let width (s : String) :=
      "\x7b\"predictor\":\x7b\"perceptron\":\x7b\"weight_bits\":".toList ++
        (s.toList ++ "\x7d\x7d\x7d".toList)
    let trace (s : String) := "[[4,true],[".toList ++ (s.toList ++ ",false]]".toList)
    Config.ofText (latency "18446744073709551615") =
        .ok { general := { resolveLatency := 0xffffffffffffffff } } ∧
      (∃ f, Config.ofText (latency "18446744073709551616") = .error (.unreadable f)) ∧
      (∃ f, Config.ofText (width "4294967296") = .error (.unreadable f)) ∧
      (∃ f, Config.ofText (width "8.0") = .error (.unreadable f)) ∧
      Trace.ofFile (.ok (trace "18446744073709551615")) =
        .ok [⟨4, true⟩, ⟨0xffffffffffffffff, false⟩] ∧
      (∃ f, Trace.ofFile (.ok (trace "-0")) = .error (.malformed f)) ∧
      (∃ f, Trace.ofFile (.ok (trace "08")) = .error (.malformed f)) := by
  intro latency width trace
  obtain ⟨configs, traces⟩ := integers_read_exactly
  have general (s : String) :
      Config.IntegerField.resolveLatency.WrittenWith {} {} s.toList (latency s) := by
    have within : Form.object.Writes
        (respelled (GeneralConfig.Given.slots {}) "resolve_latency" (· = s.toList)) _ :=
      writes_alone (by decide) (by simp [GeneralConfig.Given.slots, Slot.of]) (by decide) rfl
    refine ⟨_, padded_self ?_, writes_alone (by decide) ?_ (by decide) within⟩
    · simp [latency, quoted]
    · simp [Config.Given.slots, Slot.nested]
  have perceptron (s : String) :
      Config.IntegerField.weightBits.WrittenWith {} {} s.toList (width s) := by
    have innermost : Form.object.Writes
        (respelled (PerceptronConfig.Given.slots {}) "weight_bits" (· = s.toList)) _ :=
      writes_alone (by decide) (by simp [PerceptronConfig.Given.slots, Slot.of]) (by decide) rfl
    refine ⟨_, padded_self ?_, writes_alone (by decide) ?_ (by decide)
      (writes_alone (by decide) ?_ (by decide) innermost)⟩
    · simp [width, quoted]
    · simp [Config.Given.slots, Slot.nested]
    · simp [PredictorConfig.Given.slots, Slot.of, Slot.nested]
  have second (s : String) : Trace.WrittenWith [⟨4, true⟩] s.toList false [] (trace s) := by
    have first : Event.Spelled "[4,true]".toList ⟨4, true⟩ :=
      ⟨.array, _, _, _, ⟨[], blank_nil, by decide⟩, (List.append_nil _).symm,
        .cons (padded_self ⟨Shown (4 : UInt64), rfl, rfl⟩)
          (.cons (padded_self ⟨Shown true, rfl, rfl⟩) .nil), by simp⟩
    have given : Event.SpelledWith s.toList ('[' :: (s.toList ++ ",false]".toList)) false :=
      ⟨.array, [s.toList, "false".toList], _, _, ⟨[], blank_nil, by simp [joined, separator]⟩,
        (List.append_nil _).symm, .cons (padded_self ⟨(· = s.toList), rfl, rfl⟩)
          (.cons (padded_self ⟨Shown false, rfl, rfl⟩) .nil), by simp⟩
    refine ⟨_, _, _, _, padded_self ?_, ⟨[], blank_nil, rfl⟩, .cons (padded_self first) .nil,
      padded_self given, .nil⟩
    simp [trace, joined, separator]
  have ascii {field : Config.IntegerField} {s t : List Char} (written : field.WrittenWith {} {} s t)
      (same : Utf8.encode t = t) : field.WrittenWith {} {} s (Utf8.encode t) := by
    rw [same]
    exact written
  have plain (s : String) (digits : Digits s.toList) : LooseNumber s.toList :=
    ⟨[], s.toList, [], [], by decide, digits, .none, .none, by simp⟩
  have fraction : LooseNumber "8.0".toList :=
    ⟨[], ['8'], ['.', '0'], [], by decide, by decide, .digits (by decide), .none, by decide⟩
  have negative : LooseNumber "-0".toList :=
    ⟨['-'], ['0'], [], [], by decide, by decide, .none, .none, by decide⟩
  have largest := configs {} {} _ _ _ (plain _ (by decide))
    (ascii (general "18446744073709551615") (by decide +kernel))
  have beyond := configs {} {} _ _ _ (plain _ (by decide))
    (ascii (general "18446744073709551616") (by decide +kernel))
  have wide := configs {} {} _ _ _ (plain _ (by decide))
    (ascii (perceptron "4294967296") (by decide +kernel))
  have fractional := configs {} {} _ _ _ fraction (ascii (perceptron "8.0") (by decide +kernel))
  exact ⟨(largest.1 (by decide)).1.trans (by decide), beyond.2 (by decide), wide.2 (by decide),
    fractional.2 (by decide), ((traces _ _ _ _ _ (plain _ (by decide)) (second _)).1 (by decide)).1,
    (traces _ _ _ _ _ negative (second _)).2 (by decide),
    (traces _ _ _ _ _ (plain _ (by decide)) (second _)).2 (by decide)⟩

end BranchSim
