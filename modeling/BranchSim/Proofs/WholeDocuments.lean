import BranchSim.Proofs.Config.Document
import BranchSim.Proofs.Trace

namespace BranchSim

open Json

namespace Json

theorem ascii_of_isBlank {c : Char} (blank : isBlank c) : c.toNat < 0x80 := by
  simp only [isBlank, Bool.or_eq_true, decide_eq_true_eq] at blank
  rcases blank with ((rfl | rfl) | rfl) | rfl <;> decide

theorem blank_encodeChar {c : Char} : Blank (Utf8.encodeChar c) ↔ isBlank c := by
  by_cases ascii : c.toNat < 0x80
  · rw [Utf8.encodeChar_of_ascii ascii]
    exact List.forall_mem_singleton
  · obtain ⟨some, above⟩ := Utf8.encodeChar_above ascii
    obtain ⟨o, octets, written⟩ := List.exists_cons_of_ne_nil some
    have member : o ∈ Utf8.encodeChar c := written ▸ List.mem_cons_self ..
    constructor
    · intro blank
      exact absurd (ascii_of_isBlank (blank o member)) (Nat.not_lt.2 (above o member))
    · intro blank
      exact absurd (ascii_of_isBlank blank) ascii

theorem blank_encode {s : List Char} : Blank (Utf8.encode s) ↔ Blank s := by
  induction s with
  | nil => exact Iff.rfl
  | cons c s ih =>
      rw [Utf8.encode_cons, blank_append, blank_encodeChar, ih, blank_cons]

end Json

namespace Config

theorem encode_document_append (c : Config) (s : List Char) :
    Utf8.encode (c.document ++ s) = c.document ++ Utf8.encode s := by
  rw [Utf8.encode_append, encode_document]

theorem encode_of_cut {c : Config} {p : List Char} (cut : Cut p c.document) :
    Utf8.encode p = p := by
  obtain ⟨q, -, whole⟩ := cut
  have ascii : Ascii c.document := delimiting_format.ascii c
  rw [whole] at ascii
  exact Utf8.encode_of_ascii fun d member => ascii d (List.mem_append_left q member)

end Config

/-- Of all the texts that begin or go on as a written document does, only the document itself is
read, with any blanks behind it. -/
theorem only_whole_documents_read :
    (∀ events : List Event,
      (∀ p, p <+: Trace.document events → p ≠ Trace.document events →
        Trace.ofFile (.ok p) = .error (.malformed .truncated)) ∧
      (∀ s, ¬ Blank s →
        Trace.ofFile (.ok (Trace.document events ++ s)) = .error (.malformed .malformed)) ∧
      ∀ s, Blank s → Trace.ofFile (.ok (Trace.document events ++ s)) = .ok events) ∧
    ∀ c : Config, c.validate = .ok () →
      (∀ p, p <+: c.document → p ≠ c.document →
        Config.ofText p = .error (.unreadable .truncated)) ∧
      (∀ s, ¬ Blank s → Config.ofText (c.document ++ s) = .error (.unreadable .malformed)) ∧
      ∀ s, Blank s → Config.ofText (c.document ++ s) = .ok c := by
  constructor
  · intro events
    have delimiting := Trace.delimiting_format
    refine ⟨fun p within proper => ?_, fun s more => ?_, fun s blank => ?_⟩
    · exact Trace.ofFile_of_decode (delimiting.decode_cut events (cut_of_proper within proper))
    · exact Trace.ofFile_of_decode (delimiting.decode_append events more)
    · exact Trace.ofFile_of_decode (delimiting.faithful.decode_blank events blank)
  · intro c valid
    have delimiting := Config.delimiting_format
    refine ⟨fun p within proper => ?_, fun s more => ?_, fun s blank => ?_⟩
    · have cut := cut_of_proper within proper
      rw [Config.ofText, Config.encode_of_cut cut]
      exact Config.ofOctets_of_decode_error (delimiting.decode_cut c cut)
    · rw [Config.ofText, c.encode_document_append]
      exact Config.ofOctets_of_decode_error
        (delimiting.decode_append c (blank_encode.not.2 more))
    · have decoded : Config.format.decode (c.document ++ Utf8.encode s) = .ok c :=
        delimiting.faithful.decode_blank c (blank_encode.2 blank)
      rw [Config.ofText, c.encode_document_append, Config.ofOctets, decoded]
      simp only [valid]

theorem only_whole_documents_read_at_cut_number :
    let events : List Event := [⟨12, false⟩, ⟨345, true⟩]
    let c : Config := { general := { resolveLatency := 12 } }
    Trace.ofFile (.ok "[\x7b\"pc\":12,\"taken\":false\x7d,\x7b\"pc\":34".toList) =
        .error (.malformed .truncated) ∧
      Trace.ofFile (.ok (Trace.document events ++ [' ', ']'])) = .error (.malformed .malformed) ∧
      Trace.ofFile (.ok (Trace.document events ++ [' ', '\n'])) = .ok events ∧
      Config.ofText "\x7b\"general\":\x7b\"trace_branches\":false,\"resolve_latency\":1".toList =
        .error (.unreadable .truncated) ∧
      Config.ofText (c.document ++ [Char.ofNat 0x2003]) = .error (.unreadable .malformed) ∧
      Config.ofText (c.document ++ ['\t', '\r']) = .ok c := by
  intro events c
  obtain ⟨traces, configs⟩ := only_whole_documents_read
  obtain ⟨cut, extended, padded⟩ := traces events
  obtain ⟨cut', extended', padded'⟩ := configs c (by decide)
  refine ⟨cut _ (by decide +kernel) (by decide +kernel), extended _ (by decide),
    padded _ (by decide), cut' _ (by decide +kernel) (by decide +kernel), extended' _ (by decide),
    padded' _ (by decide)⟩

end BranchSim
