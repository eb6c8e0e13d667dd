import BranchSim.Proofs.Json.Slots
import BranchSim.Proofs.Trace

namespace BranchSim

open Json Json.Format

namespace Event

def record : OfRecord Event.format := ⟨_, rfl⟩

structure Given where
  pc : Option Address := none
  taken : Option Bool := none

namespace Given

def slots (g : Given) : List Slot := [
  .of "pc" true g.pc Shown,
  .of "taken" true g.taken Shown]

theorem makes (g : Given) : record.type.Makes g.slots ⟨g.pc.getD 0, g.taken.getD false⟩ := by
  have address (w : UInt64) (v : List Char) (shown : Shown w v) : (word64 "u64").Accepts v w := by
    rw [shown, ← write_word64 "u64"]
    exact accepts_word64 "u64" w
  have outcome (b : Bool) (v : List Char) (shown : Shown b v) : Format.boolean.Accepts v b := by
    rw [shown, ← write_boolean]
    exact accepts_boolean b
  exact .of_matches ⟨by decide, by decide⟩
    (.cons (fits_of address rfl) <| .cons (fits_of outcome rfl) .nil) (by simp) rfl

theorem reads (g : Given) : Event.format.Reads g.slots ⟨g.pc.getD 0, g.taken.getD false⟩ :=
  g.makes.reads

end Given

def Spelled (v : List Char) (e : Event) : Prop :=
  ∃ form : Form, form.Writes (Given.slots { pc := e.pc, taken := e.taken }) v

theorem accepts_spelled {v : List Char} {e : Event} (spelled : Spelled v e) :
    Event.format.Accepts v e := by
  obtain ⟨form, writes⟩ := spelled
  have reads := Given.reads { pc := e.pc, taken := e.taken }
  exact (reads.delimits (by simp [Given.slots, Slot.of]) writes).accepts

end Event

namespace Trace

def Written (events : List Event) (octets : List Char) : Prop :=
  ∃ v texts, Padded Eq octets v ∧ Enclosed '[' ']' texts v ∧
    List.Forall₂ (Padded Event.Spelled) texts events

def Leads (octets : List Char) : Prop :=
  ∃ b s b' texts events, Blank b ∧ Blank b' ∧ Opened '[' texts b' s ∧
    List.Forall₂ (Padded Event.Spelled) texts events ∧ octets = b ++ s

theorem padded_accepts {texts : List (List Char)} {events : List Event}
    (each : List.Forall₂ (Padded Event.Spelled) texts events) :
    List.Forall₂ (Padded Event.format.Accepts) texts events :=
  each.imp fun _ _ padded => padded.mono fun _ => Event.accepts_spelled

theorem ofFile_of_written {events : List Event} {octets : List Char}
    (written : Written events octets) : ofFile (.ok octets) = .ok events := by
  obtain ⟨v, texts, padded, enclosed, each⟩ := written
  have decoded : Trace.format.decode octets = .ok events :=
    (delimits_list (padded_accepts each) enclosed).accepts.decode padded
  exact ofFile_of_decode decoded

theorem ofFile_of_refuses {octets o : List Char} (leads : Leads octets) {f : Fault}
    (refuses : Event.format.Refuses o f) (rest : List Char) :
    ofFile (.ok (octets ++ (o ++ rest))) = .error (.malformed f) := by
  obtain ⟨b, s, b', texts, events, blank, blank', opened, each, rfl⟩ := leads
  have whole := refuses_list (padded_accepts each) blank' opened refuses
  have decoded : Trace.format.decode (b ++ s ++ (o ++ rest)) = .error f := by
    rw [List.append_assoc, ← List.append_assoc s]
    exact whole.decode blank rest
  exact ofFile_of_decode decoded

/-- After any events, an object that gives a field again is refused at its key, and one that closes
without a field is refused for the first that is missing; events that are complete are all read. -/
theorem incomplete_event_refused :
    (∀ (octets o rest : List Char) (g : Event.Given) (key : String), Leads octets →
      OpensKey g.slots key o → key = "pc" ∧ g.pc.isSome ∨ key = "taken" ∧ g.taken.isSome →
        ofFile (.ok (octets ++ (o ++ rest))) = .error (.malformed (.data (.duplicateField key)))) ∧
    (∀ (octets o rest : List Char) (g : Event.Given), Leads octets →
      Form.object.Writes g.slots o →
        (g.pc = none →
          ofFile (.ok (octets ++ (o ++ rest))) = .error (.malformed (.data (.missingField "pc")))) ∧
        (g.pc.isSome → g.taken = none →
          ofFile (.ok (octets ++ (o ++ rest))) =
            .error (.malformed (.data (.missingField "taken"))))) ∧
    ∀ (octets : List Char) (events : List Event), Written events octets →
      ofFile (.ok octets) = .ok events := by
  refine ⟨?_, ?_, fun octets events written => ofFile_of_written written⟩
  · rintro octets o rest g key leads opens (⟨rfl, there⟩ | ⟨rfl, there⟩)
    · have given : Slot.of "pc" true g.pc Shown ∈ g.slots := List.mem_cons_self ..
      have refuses := g.reads.refuses_duplicate given (by simpa [Slot.of] using there) opens
      exact ofFile_of_refuses leads refuses rest
    · have given : Slot.of "taken" true g.taken Shown ∈ g.slots := by simp [Event.Given.slots]
      have refuses := g.reads.refuses_duplicate given (by simpa [Slot.of] using there) opens
      exact ofFile_of_refuses leads refuses rest
  · intro octets o rest g leads writes
    constructor
    · intro missing
      have first : g.slots.find? (fun slot => slot.required && slot.right.isNone) =
          some (Slot.of "pc" true g.pc Shown) := by
        simp [Event.Given.slots, Slot.of, missing]
      exact ofFile_of_refuses leads (g.reads.refuses_missing first writes) rest
    · intro there missing
      have first : g.slots.find? (fun slot => slot.required && slot.right.isNone) =
          some (Slot.of "taken" true g.taken Shown) := by
        obtain ⟨pc, given⟩ := Option.isSome_iff_exists.1 there
        simp [Event.Given.slots, Slot.of, missing, given]
      exact ofFile_of_refuses leads (g.reads.refuses_missing first writes) rest

theorem incomplete_event_refused_after_first :
    let before := "[[4,true],".toList
    ofFile (.ok (before ++ ("\x7b\"pc\":8,\"\\u0070c\"".toList ++ " and so on".toList))) =
        .error (.malformed (.data (.duplicateField "pc"))) ∧
      ofFile (.ok (before ++ ("\x7b\"taken\":true\x7d".toList ++ []))) =
        .error (.malformed (.data (.missingField "pc"))) ∧
      ofFile (.ok (before ++ ("\x7b\"pc\":8\x7d".toList ++ [']']))) =
        .error (.malformed (.data (.missingField "taken"))) ∧
      ofFile (.ok "[[4,true]]\n".toList) = .ok [⟨4, true⟩] := by
  intro before
  obtain ⟨duplicate, missing, complete⟩ := incomplete_event_refused
  have first : Event.Spelled "[4,true]".toList ⟨4, true⟩ :=
    ⟨.array, [['4'], "true".toList], _, [], ⟨[], blank_nil, by decide⟩, rfl,
      .cons (padded_self ⟨Shown (4 : UInt64), rfl, rfl⟩) (.cons (padded_self ⟨Shown true, rfl, rfl⟩)
        .nil), by simp⟩
  have leads : Leads before :=
    ⟨[], _, [], _, _, blank_nil, blank_nil, ⟨[], blank_nil, by decide⟩,
      .cons (padded_self first) .nil, rfl⟩
  have address := memberText_quoted (by decide : Plain "pc".toList) ['8']
  have outcome := memberText_quoted (by decide : Plain "taken".toList) "true".toList
  have gives : Gives (Event.Given.slots { pc := some 8 }) [("pc".toList, ['8'])] := by
    refine ⟨List.forall_mem_singleton.2 (.inl ⟨_, List.mem_cons_self .., rfl, _, rfl, rfl⟩), ?_⟩
    simp [Event.Given.slots, Slot.of]
  have escaped : Spells ('\\' :: 'u' :: ("0070".toList ++ ['c'])) (Char.ofNat 0x70 :: ['c']) :=
    .numbered ⟨rfl, rfl⟩ (by decide) (Plain.spells (by decide))
  have opens : OpensKey (Event.Given.slots { pc := some 8 }) "pc"
      "\x7b\"pc\":8,\"\\u0070c\"".toList :=
    ⟨_, _, [], _, .cons address .nil, gives, blank_nil, ⟨_, escaped, rfl⟩, [], blank_nil, by decide⟩
  have without : Form.object.Writes (Event.Given.slots { taken := some true })
      "\x7b\"taken\":true\x7d".toList := by
    refine ⟨_, _, ⟨[], blank_nil, by decide⟩, .cons outcome .nil, ?_, ?_⟩
    · exact List.forall_mem_singleton.2
        (.inl ⟨_, List.mem_cons_of_mem _ (List.mem_cons_self ..), rfl, _, rfl, rfl⟩)
    · simp [Event.Given.slots, Slot.of]
  have alone : Form.object.Writes (Event.Given.slots { pc := some 8 })
      "\x7b\"pc\":8\x7d".toList :=
    ⟨_, _, ⟨[], blank_nil, by decide⟩, .cons address .nil, gives⟩
  have written : Written [⟨4, true⟩] "[[4,true]]\n".toList :=
    ⟨"[[4,true]]".toList, _, ⟨[], _, ['\n'], blank_nil, rfl, by decide, rfl⟩,
      ⟨[], blank_nil, by decide⟩, .cons (padded_self first) .nil⟩
  exact ⟨duplicate _ _ _ _ _ leads opens (.inl ⟨rfl, rfl⟩), (missing _ _ _ _ leads without).1 rfl,
    (missing _ _ _ _ leads alone).2 rfl rfl,
    complete _ _ written⟩

end Trace

end BranchSim
