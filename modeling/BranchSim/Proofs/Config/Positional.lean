import BranchSim.Proofs.Config.Given

namespace BranchSim

open Json Json.Format

namespace Config

theorem ofText_of_malformed {shape : Shape} {g : Given} {text b s rest : List Char}
    (blank : Blank b) (malformed : Malformed (g.slots shape) s)
    (written : Utf8.encode text = b ++ (s ++ rest)) :
    ofText text = .error (.unreadable .malformed) := by
  have refuses := (g.reads shape).refuses_malformed malformed
  have decoded : format.decode (Utf8.encode text) = .error .malformed := by
    rw [written]
    exact refuses.decode blank rest
  exact ofOctets_of_decode_error decoded

/-- Documents that give the same fields have the same result, whichever of their records are arrays,
and a record whose array goes on after its last field makes a document malformed. -/
theorem positional_document_agrees :
    (∀ (g : Given) (shape shape' : Shape) (text text' : List Char),
      g.Written shape (Utf8.encode text) → g.Written shape' (Utf8.encode text') →
        ofText text = ofText text' ∧ ofText text = (g.onto {}).checked) ∧
    ∀ (g : Given) (shape : Shape) (text b s rest : List Char), Blank b →
      Malformed (g.slots shape) s → Utf8.encode text = b ++ (s ++ rest) →
        ofText text = .error (.unreadable .malformed) := by
  constructor
  · intro g shape shape' text text' written written'
    have read := ofText_of_written written
    exact ⟨read.trans (ofText_of_written written').symm, read⟩
  · intro g shape text b s rest blank malformed written
    exact ofText_of_malformed blank malformed written

theorem positional_document_agrees_on_section :
    let c : Config := { general := { traceBranches := true } }
    ofText "\x7b\"general\":[true]\x7d".toList = .ok c ∧
      ofText "[ \x7b\"trace_branches\":true\x7d]".toList = .ok c ∧
      ofText "[[true,0,\"beyond\"]]".toList = .error (.unreadable .malformed) := by
  intro c
  obtain ⟨agrees, refuses⟩ := positional_document_agrees
  have holds : Holds "true".toList (.of "trace_branches" false (some true) Shown) := ⟨_, rfl, rfl⟩
  have array : Form.array.Writes (GeneralConfig.Given.slots { traceBranches := some true })
      "[true]".toList :=
    ⟨_, _, _, ⟨[], blank_nil, by decide⟩, rfl, .cons (padded_self holds) .nil,
      List.forall_mem_singleton.2 rfl⟩
  have object : Form.object.Writes (GeneralConfig.Given.slots { traceBranches := some true })
      "\x7b\"trace_branches\":true\x7d".toList := by
    have given := memberText_quoted (by decide : Plain "trace_branches".toList) "true".toList
    refine ⟨_, _, ⟨[], blank_nil, by decide⟩, .cons given .nil, ?_, ?_⟩
    · exact List.forall_mem_singleton.2 (.inl ⟨_, List.mem_cons_self .., rfl, holds⟩)
    · simp [GeneralConfig.Given.slots, Slot.of]
  let g : Given := { general := some { traceBranches := some true } }
  have inside : g.Written { general := .array }
      (Utf8.encode "\x7b\"general\":[true]\x7d".toList) := by
    have given := memberText_quoted (by decide : Plain "general".toList) "[true]".toList
    refine ⟨_, padded_self rfl, _, _, ⟨[], blank_nil, by decide⟩, .cons given .nil, ?_, ?_⟩
    · exact List.forall_mem_singleton.2 (.inl ⟨_, List.mem_cons_self .., rfl, _, rfl, array⟩)
    · simp [g, Given.slots, Slot.nested]
  have outside : g.Written { config := .array }
      (Utf8.encode "[ \x7b\"trace_branches\":true\x7d]".toList) :=
    ⟨_, padded_self rfl, _, _, _, ⟨[], blank_nil, rfl⟩, rfl,
      .cons ⟨[' '], _, [], by decide, ⟨_, rfl, object⟩, by decide, rfl⟩ .nil,
      List.forall_mem_singleton.2 rfl⟩
  have overlong : Malformed (GeneralConfig.Given.slots
      { traceBranches := some true, resolveLatency := some 0 }) "[true,0,".toList :=
    .overlong (.cons (padded_self holds) (.cons (padded_self ⟨_, rfl, rfl⟩) .nil))
      ⟨[], blank_nil, by decide⟩
  have malformed : Malformed (Given.slots {} {}) ("[".toList ++ "[true,0,".toList) :=
    .within (List.mem_cons_self ..) (.element rfl .nil blank_nil ⟨[], blank_nil, rfl⟩) ⟨_, overlong⟩
  obtain ⟨same, read⟩ := agrees _ _ _ _ _ inside outside
  have refused : ofText "[[true,0,\"beyond\"]]".toList = _ :=
    refuses _ _ _ [] _ "\"beyond\"]]".toList blank_nil malformed rfl
  have valid : (g.onto {}).checked = .ok c := by decide
  exact ⟨read.trans valid, same.symm.trans (read.trans valid), refused⟩

end Config

end BranchSim
