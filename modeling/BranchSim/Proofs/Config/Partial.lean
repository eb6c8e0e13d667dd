import BranchSim.Proofs.Config.Given

namespace BranchSim

open Json Json.Format

namespace Config

/-- The second document gives a section that the first leaves out, either without any fields or with
the default values of all of them. -/
inductive Given.Defaulted : Given → Given → Prop
  | general (g : Given) {s : GeneralConfig.Given} (trivial : s = {} ∨ s = .all {}) :
    Defaulted { g with general := none } { g with general := some s }
  | predictor (g : Given) {s : PredictorConfig.Given} (trivial : s = {} ∨ s = .all {}) :
    Defaulted { g with predictor := none } { g with predictor := some s }
  | perceptron (g : Given) (p : PredictorConfig.Given) {s : PerceptronConfig.Given}
    (trivial : s = {} ∨ s = .all {}) :
    Defaulted { g with predictor := some { p with perceptron := none } }
      { g with predictor := some { p with perceptron := some s } }
  | gshare (g : Given) (p : PredictorConfig.Given) {s : GShareConfig.Given}
    (trivial : s = {} ∨ s = .all {}) :
    Defaulted { g with predictor := some { p with gshare := none } }
      { g with predictor := some { p with gshare := some s } }

theorem Given.Defaulted.onto_eq {g g' : Given} (defaulted : g.Defaulted g') :
    g.onto {} = g'.onto {} := by
  cases defaulted with
  | general _ trivial => rcases trivial with rfl | rfl <;> rfl
  | predictor _ trivial => rcases trivial with rfl | rfl <;> rfl
  | perceptron _ _ trivial => rcases trivial with rfl | rfl <;> rfl
  | gshare _ _ trivial => rcases trivial with rfl | rfl <;> rfl

/-- A document of objects is read as the default configuration with the fields it gives replaced. -/
theorem partial_document_fills_defaults :
    (∀ (g : Given) (text : List Char), g.Written {} (Utf8.encode text) →
      ofText text = (g.onto {}).checked) ∧
    ∀ (g g' : Given) (text text' : List Char), g.Defaulted g' →
      g.Written {} (Utf8.encode text) → g'.Written {} (Utf8.encode text') →
        ofText text = ofText text' := by
  refine ⟨fun g text written => ofText_of_written written, ?_⟩
  intro g g' text text' defaulted written written'
  rw [ofText_of_written written, ofText_of_written written', defaulted.onto_eq]

theorem partial_document_fills_defaults_of_loose_text :
    let text := "\x7b \"cores\" : [ ] , \"general\":\x7b\"\\u0072esolve_latency\":3\x7d\x7d\n"
    ofText text.toList = .ok { general := { resolveLatency := 3 } } ∧
      ofText "\x7b\x7d".toList = ofText "\x7b\"general\":\x7b \x7d\x7d".toList := by
  intro text
  obtain ⟨replaces, defaults⟩ := partial_document_fills_defaults
  have escaped : Spells ('\\' :: 'u' :: ("0072".toList ++ "esolve_latency".toList))
      (Char.ofNat 0x72 :: "esolve_latency".toList) :=
    .numbered ⟨rfl, rfl⟩ (by decide) (Plain.spells (by decide))
  have latency : MemberText Named "\"\\u0072esolve_latency\":3".toList
      ("resolve_latency".toList, ['3']) :=
    ⟨_, _, padded_self ⟨_, escaped, rfl⟩, padded_self rfl, by decide⟩
  have general : Form.object.Writes (GeneralConfig.Given.slots { resolveLatency := some 3 })
      "\x7b\"\\u0072esolve_latency\":3\x7d".toList := by
    have shown : Shown (3 : UInt64) ['3'] := rfl
    refine ⟨_, _, ⟨[], blank_nil, by decide⟩, .cons latency .nil, ?_, ?_⟩
    · simp [Sound, GeneralConfig.Given.slots, Slot.of, Holds, shown]
    · simp [GeneralConfig.Given.slots, Slot.of]
  have written : Given.Written {} { general := some { resolveLatency := some 3 } }
      (Utf8.encode text.toList) := by
    have array : Value "[ ]".toList := .array ⟨[' '], by decide, rfl⟩ .nil (by simp)
    have cores : MemberText Named " \"cores\" : [ ] ".toList ("cores".toList, "[ ]".toList) :=
      ⟨_, _, ⟨[' '], _, [' '], by decide, named_quoted (by decide), by decide, rfl⟩,
        ⟨[' '], _, [' '], by decide, rfl, by decide, rfl⟩, by decide⟩
    have given : MemberText Named " \"general\":\x7b\"\\u0072esolve_latency\":3\x7d".toList
        ("general".toList, "\x7b\"\\u0072esolve_latency\":3\x7d".toList) :=
      ⟨_, _, ⟨[' '], _, [], by decide, named_quoted (by decide), by decide, rfl⟩, padded_self rfl,
        by decide⟩
    refine ⟨_, ⟨[], _, ['\n'], by decide, rfl, by decide, ?_⟩, _, _, ⟨[], blank_nil, rfl⟩,
      .cons cores (.cons given .nil), ?_, ?_⟩
    · decide
    · refine List.forall_mem_cons.2 ⟨.inr ⟨?_, array⟩, List.forall_mem_singleton.2 (.inl ?_)⟩
      · simp [Given.slots, Slot.nested]
      · exact ⟨_, List.mem_cons_self .., rfl, _, rfl, general⟩
    · simp [Given.slots, Slot.nested]
  have empty : Given.Written {} {} (Utf8.encode "\x7b\x7d".toList) :=
    ⟨_, padded_self rfl, _, _, ⟨[], blank_nil, rfl⟩, .nil, by simp, by
      simp [Given.slots, Slot.nested]⟩
  have written_empty : Given.Written {} { general := some {} }
      (Utf8.encode "\x7b\"general\":\x7b \x7d\x7d".toList) := by
    have general : Form.object.Writes (GeneralConfig.Given.slots {}) "\x7b \x7d".toList :=
      ⟨_, _, ⟨[' '], by decide, rfl⟩, .nil, by simp, by simp [GeneralConfig.Given.slots, Slot.of]⟩
    have given := memberText_quoted (by decide : Plain "general".toList) "\x7b \x7d".toList
    refine ⟨_, padded_self rfl, _, _, ⟨[], blank_nil, by decide⟩, .cons given .nil, ?_, ?_⟩
    · exact List.forall_mem_singleton.2 (.inl ⟨_, List.mem_cons_self .., rfl, _, rfl, general⟩)
    · simp [Given.slots, Slot.nested]
  have defaulted : Given.Defaulted {} { general := some {} } := .general {} (.inl rfl)
  exact ⟨(replaces _ _ written).trans (by decide),
    defaults _ _ _ _ defaulted empty written_empty⟩

end Config

end BranchSim
