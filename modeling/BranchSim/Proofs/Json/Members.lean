import BranchSim.Proofs.Json.Accepts

/-!
# Members of a record

An object gives the fields of a record by their keys, in any order and among members that the record
does not know. `Takes` is what its members change in the record, one after the other. The object is
taken for the record that they make, or refused for a key that is missing or comes twice, whatever
follows it.
-/

namespace BranchSim.Json

namespace Format

section Records

variable {ρ : Type}

/-! ## Fields -/

structure Field.Accepts (f : Field ρ) (s : List Char) (update : ρ → ρ) : Prop where
  starts : Starts s
  read : ∀ r b rest, Blank b → Ends rest → f.read r (b ++ (s ++ rest)) = .ok (update r, rest)

structure Field.Refuses (f : Field ρ) (s : List Char) (e : Fault) : Prop where
  starts : Starts s
  read : ∀ r b rest, Blank b → f.read r (b ++ (s ++ rest)) = .error e

structure Field.FailsOn (f : Field ρ) (s : List Char) (e : Fault) : Prop where
  starts : Starts s
  read : ∀ r b, Blank b → f.read r (b ++ s) = .error e

def Field.Rejects (f : Field ρ) (s : List Char) : Prop :=
  ∀ rest, Ends rest → ∃ e, f.FailsOn (s ++ rest) e

theorem Field.Refuses.failsOn {f : Field ρ} {s : List Char} {e : Fault} (refuses : f.Refuses s e)
    (rest : List Char) : f.FailsOn (s ++ rest) e :=
  ⟨refuses.starts.append rest, fun r b blank => refuses.read r b rest blank⟩

theorem Accepts.field {α : Type} {f : Format α} {s : List Char} {a : α} (accepts : f.Accepts s a)
    {key : String} {required : Bool} {get : ρ → α} {set : ρ → α → ρ} :
    (Field.of key required f get set).Accepts s fun r => set r a := by
  refine ⟨accepts.starts, fun r b rest blank ends => ?_⟩
  simp only [Field.of, accepts.read b rest blank ends, bind, Except.bind]
  rfl

theorem Refuses.field {α : Type} {f : Format α} {s : List Char} {e : Fault}
    (refuses : f.Refuses s e) {key : String} {required : Bool} {get : ρ → α} {set : ρ → α → ρ} :
    (Field.of key required f get set).Refuses s e := by
  refine ⟨refuses.starts, fun r b rest blank => ?_⟩
  simp only [Field.of, refuses.read b rest blank, bind, Except.bind]

theorem Rejects.field {α : Type} {f : Format α} {s : List Char} (rejects : f.Rejects s)
    {key : String} {required : Bool} {get : ρ → α} {set : ρ → α → ρ} :
    (Field.of key required f get set).Rejects s := by
  intro rest ends
  obtain ⟨e, fails⟩ := rejects rest ends
  refine ⟨e, fails.starts, fun r b blank => ?_⟩
  simp only [Field.of, fails.read b blank, bind, Except.bind]

structure Change (ρ : Type) where
  field : Field ρ
  update : ρ → ρ

abbrev Change.key (m : Change ρ) : String :=
  m.field.key

def applied (changes : List (Change ρ)) (r : ρ) : ρ :=
  changes.foldl (fun r m => m.update r) r

/-- The keys of a record need no escapes and tell its fields apart. -/
structure RecordType.Regular (t : RecordType ρ) : Prop where
  plain : ∀ f ∈ t.fields, Plain f.key.toList
  distinct : (t.fields.map (·.key)).Nodup

theorem find?_key {fields : List (Field ρ)} (distinct : (fields.map (·.key)).Nodup) {f : Field ρ}
    (member : f ∈ fields) : fields.find? (·.key = f.key) = some f := by
  induction fields with
  | nil => cases member
  | cons g fields ih =>
      rw [List.map_cons, List.nodup_cons] at distinct
      rcases List.mem_cons.1 member with rfl | later
      · exact List.find?_cons_of_pos (decide_eq_true rfl)
      · have other : g.key ≠ f.key := fun same =>
          distinct.1 (same ▸ List.mem_map_of_mem later)
        rw [List.find?_cons_of_neg (by simpa using other)]
        exact ih distinct.2 later

namespace RecordType

variable {t : RecordType ρ}

theorem Regular.field?_key (regular : t.Regular) {f : Field ρ} (member : f ∈ t.fields) :
    t.field? f.key.toList = some f := by
  have found := find?_key regular.distinct member
  rw [← String.ofList_toList (s := f.key)] at found
  exact found

theorem Regular.distinct_changes (regular : t.Regular) {changes : List (Change ρ)}
    (all : changes.map (·.field) = t.fields) : (changes.map (·.key)).Nodup := by
  have distinct := regular.distinct
  rw [← all, List.map_map] at distinct
  exact distinct

theorem field?_eq_none {name : List Char} (unknown : ∀ f ∈ t.fields, f.key.toList ≠ name) :
    t.field? name = none := by
  apply List.find?_eq_none.2
  intro f member same
  have keyed : f.key = String.ofList name := of_decide_eq_true same
  apply unknown f member
  rw [keyed, String.toList_ofList]

theorem missing?_eq_none {seen : List String}
    (complete : ∀ f ∈ t.fields, f.required → f.key ∈ seen) : t.missing? seen = none := by
  apply List.find?_eq_none.2
  intro f member
  by_cases required : f.required
  · have present : f.key ∈ seen := complete f member required
    simp [present]
  · simp [required]

theorem missing?_reverse (seen : List String) : t.missing? seen.reverse = t.missing? seen := by
  simp only [missing?, List.contains_reverse]

/-! ## One member -/

theorem readMembers_blank {b : List Char} (blank : Blank b) (bound : List Char) (first : Bool)
    (seen : List String) (r : ρ) (s : List Char) :
    t.readMembers bound first seen r (b ++ s) = t.readMembers bound first seen r s := by
  cases bound with
  | nil => rfl
  | cons _ bound => rw [readMembers, readMembers, readNext_blank blank]

theorem readMembers_close (c : Char) (bound : List Char) (first : Bool) (seen : List String) (r : ρ)
    (rest : List Char) :
    t.readMembers (c :: bound) first seen r ('}' :: rest) = match t.missing? seen with
      | some f => .error (.data (.missingField f.key))
      | none => .ok (r, rest) := by
  rw [readMembers, readNext_close rfl]
  rfl

section Key

variable {name b k bound : List Char} {f : Field ρ} {c : Char} {seen : List String}

theorem readKey_append (blank : Blank b) (named : Named k name) (first : Bool) (rest : List Char) :
    ∃ e, readNext '}' first (separator first ++ (b ++ (k ++ rest))) = .ok (.element e) ∧
      readKey e = .ok (name, rest) := by
  obtain ⟨s, spells, rfl⟩ := named
  have next := readNext_item (by decide : ',' ≠ '}') blank (by decide : isBlank '"' = false)
    (by decide) first (s ++ '"' :: rest)
  rw [List.cons_append, List.append_assoc, List.singleton_append]
  exact ⟨_, next, readText_of_spells spells rest⟩

theorem readMembers_unknown (blank : Blank b) (named : Named k name)
    (unknown : t.field? name = none) (first : Bool) (r : ρ) (rest : List Char) :
    t.readMembers (c :: bound) first seen r (separator first ++ (b ++ (k ++ rest))) = (do
      let s ← readColon rest
      let s ← skipValue s
      t.readMembers bound false seen r s) := by
  obtain ⟨e, next, key⟩ := readKey_append blank named first rest
  rw [readMembers, next]
  simp only [bind, Except.bind, key, unknown]

theorem readMembers_known (blank : Blank b) (named : Named k name) (known : t.field? name = some f)
    (fresh : f.key ∉ seen) (first : Bool) (r : ρ) (rest : List Char) :
    t.readMembers (c :: bound) first seen r (separator first ++ (b ++ (k ++ rest))) = (do
      let s ← readColon rest
      let (r, s) ← f.read r s
      t.readMembers bound false (f.key :: seen) r s) := by
  obtain ⟨e, next, key⟩ := readKey_append blank named first rest
  have unseen : ¬ seen.contains f.key := by
    simpa using fresh
  rw [readMembers, next]
  simp only [bind, Except.bind, key, known]
  exact if_neg unseen

theorem readMembers_duplicate (blank : Blank b) (named : Named k name)
    (known : t.field? name = some f) (again : f.key ∈ seen) (first : Bool) (r : ρ)
    (rest : List Char) :
    t.readMembers (c :: bound) first seen r (separator first ++ (b ++ (k ++ rest))) =
      .error (.data (.duplicateField f.key)) := by
  obtain ⟨e, next, key⟩ := readKey_append blank named first rest
  have present : seen.contains f.key := by
    simpa using again
  rw [readMembers, next]
  simp only [bind, Except.bind, key, known]
  exact if_pos present

end Key

/-! ## All members in turn -/

abbrev Members := List (List Char × List Char)

variable (t) in
inductive Takes : Members → List (Change ρ) → Prop
  | nil : Takes [] []
  | skip {name v : List Char} {members : Members} {changes : List (Change ρ)}
    (unknown : t.field? name = none) (value : Value v) (later : Takes members changes) :
    Takes ((name, v) :: members) changes
  | read {m : Change ρ} {name v : List Char} {members : Members} {changes : List (Change ρ)}
    (known : t.field? name = some m.field) (accepts : m.field.Accepts v m.update)
    (later : Takes members changes) : Takes ((name, v) :: members) (m :: changes)

theorem readMembers_joined {members : Members} {changes : List (Change ρ)}
    (takes : t.Takes members changes) {seen : List String}
    (distinct : (changes.map (·.key) ++ seen).Nodup) {texts : List (List Char)}
    (each : List.Forall₂ (MemberText Named) texts members) {bound : List Char}
    (room : texts.length ≤ bound.length) (first : Bool) (r : ρ) {rest : List Char}
    (ends : texts ≠ [] → Ends rest) :
    t.readMembers bound first seen r (joined first texts ++ rest) =
      t.readMembers (bound.drop texts.length) (first && texts.isEmpty)
        ((changes.map (·.key)).reverse ++ seen) (applied changes r) rest := by
  induction takes generalizing texts bound first seen r with
  | nil =>
      cases each
      rw [joined, List.nil_append, List.length_nil, List.drop_zero, List.isEmpty_nil, Bool.and_true]
      rfl
  | skip unknown value _ ih =>
      obtain _ | @⟨_, _, texts, _, member, each⟩ := each
      obtain ⟨_, _, ⟨b, k, b', blank, named, blank', rfl⟩, ⟨d, v, d', blank_d, rfl, blank_d', rfl⟩,
        rfl⟩ := member
      obtain ⟨_, bound, rfl⟩ := List.exists_cons_of_length_pos (Nat.zero_lt_of_lt room)
      have ends := ends (List.cons_ne_nil _ _)
      have skipped := skipValue_append value blank_d ((ends_joined ends texts).of_blank blank_d')
      have later := ih distinct each (Nat.le_of_succ_le_succ room) false r fun _ => ends
      simp only [joined, List.append_assoc, List.cons_append] at skipped ⊢
      rw [readMembers_unknown blank named unknown]
      simp only [readColon_blank blank', bind, Except.bind, skipped, readMembers_blank blank_d',
        later, List.length_cons, List.drop_succ_cons, List.isEmpty_cons, Bool.and_false,
        Bool.false_and]
  | @read m name v members changes known accepts _ ih =>
      obtain _ | @⟨_, _, texts, _, member, each⟩ := each
      obtain ⟨_, _, ⟨b, k, b', blank, named, blank', rfl⟩, ⟨d, v, d', blank_d, rfl, blank_d', rfl⟩,
        rfl⟩ := member
      obtain ⟨_, bound, rfl⟩ := List.exists_cons_of_length_pos (Nat.zero_lt_of_lt room)
      have ends := ends (List.cons_ne_nil _ _)
      have fresh : m.key ∉ seen := fun again =>
        (List.nodup_cons.1 distinct).1 (List.mem_append_right _ again)
      -- The key only moves from those to come to those seen.
      have moved : (changes.map (·.key) ++ m.key :: seen).Nodup :=
        List.perm_middle.nodup_iff.2 distinct
      have value := accepts.read r d _ blank_d ((ends_joined ends texts).of_blank blank_d')
      have later := ih moved each (Nat.le_of_succ_le_succ room) false (m.update r) fun _ => ends
      simp only [joined, List.append_assoc, List.cons_append] at value ⊢
      rw [readMembers_known blank named known fresh]
      simp only [readColon_blank blank', bind, Except.bind, value, readMembers_blank blank_d',
        later, List.length_cons, List.drop_succ_cons, List.isEmpty_cons, Bool.and_false,
        Bool.false_and, List.map_cons, List.reverse_cons, List.append_assoc, List.singleton_append]
      rfl

end RecordType

/-! ## Objects -/

section Objects

open RecordType

variable {t : RecordType ρ} {members : Members} {changes : List (Change ρ)}
  {texts : List (List Char)}

theorem read_object {b : List Char} (blank : Blank b) (s : List Char) :
    (record t).read (b ++ '{' :: s) = t.readMembers s true [] t.initial s := by
  simp only [record, skipBlanks_append blank, skipBlanks_cons (show isBlank '{' = false from rfl)]

theorem memberText_ne_nil {κ : Type} {Key : List Char → κ → Prop} {s : List Char}
    {m : κ × List Char} (member : MemberText Key s m) : s ≠ [] := by
  obtain ⟨k, v, -, -, rfl⟩ := member
  simp

theorem memberText_quoted {key : String} (plain : Plain key.toList) (v : List Char) :
    MemberText Named (quoted key ++ ':' :: v) (key.toList, v) :=
  ⟨_, _, padded_self (named_quoted plain), padded_self rfl, rfl⟩

theorem read_members (takes : t.Takes members changes) (distinct : (changes.map (·.key)).Nodup)
    (each : List.Forall₂ (MemberText Named) texts members) {b b' tail : List Char}
    (blank : Blank b) (blank' : Blank b') (more : tail ≠ []) (ends : texts ≠ [] → Ends tail) :
    ∃ c bound, (record t).read (b ++ '{' :: (b' ++ (joined true texts ++ tail))) =
      t.readMembers (c :: bound) texts.isEmpty (changes.map (·.key)).reverse
        (applied changes t.initial) tail := by
  have solid := forall_of_forall₂ each fun _ _ => memberText_ne_nil
  have room := length_lt_of_joined solid b' more
  rw [← List.append_nil (changes.map (·.key))] at distinct
  have run := readMembers_joined takes distinct each (Nat.le_of_lt room) true t.initial ends
  obtain ⟨c, bound, left⟩ := List.exists_cons_of_length_pos
    (List.length_drop.symm ▸ Nat.sub_pos_of_lt room)
  refine ⟨c, bound, ?_⟩
  rw [read_object blank, readMembers_blank blank', run, left, Bool.true_and, List.append_nil]

theorem read_closed (takes : t.Takes members changes) (distinct : (changes.map (·.key)).Nodup)
    (each : List.Forall₂ (MemberText Named) texts members) {s : List Char}
    (enclosed : Enclosed '{' '}' texts s) {b : List Char} (blank : Blank b) (rest : List Char) :
    (record t).read (b ++ (s ++ rest)) = match t.missing? (changes.map (·.key)) with
      | some f => .error (.data (.missingField f.key))
      | none => .ok (applied changes t.initial, rest) := by
  obtain ⟨b', blank', rfl⟩ := enclosed
  obtain ⟨c, bound, run⟩ := read_members takes distinct each blank blank'
    (List.cons_ne_nil '}' rest) fun _ => ends_closing (.inr rfl) rest
  simp only [List.cons_append, List.append_assoc, List.nil_append]
  rw [run, readMembers_close, missing?_reverse]

theorem delimits_object (takes : t.Takes members changes) (distinct : (changes.map (·.key)).Nodup)
    (complete : ∀ f ∈ t.fields, f.required → f.key ∈ changes.map (·.key))
    (each : List.Forall₂ (MemberText Named) texts members) {s : List Char}
    (enclosed : Enclosed '{' '}' texts s) : (record t).Delimits s (applied changes t.initial) := by
  refine ⟨starts_enclosed rfl (by decide) enclosed, fun b rest blank => ?_⟩
  rw [read_closed takes distinct each enclosed blank, missing?_eq_none complete]

theorem refuses_missing (takes : t.Takes members changes) (distinct : (changes.map (·.key)).Nodup)
    {f : Field ρ} (missing : t.missing? (changes.map (·.key)) = some f)
    (each : List.Forall₂ (MemberText Named) texts members) {s : List Char}
    (enclosed : Enclosed '{' '}' texts s) :
    (record t).Refuses s (.data (.missingField f.key)) := by
  refine ⟨starts_enclosed rfl (by decide) enclosed, fun b rest blank => ?_⟩
  rw [read_closed takes distinct each enclosed blank, missing]

theorem refuses_duplicate (takes : t.Takes members changes)
    (distinct : (changes.map (·.key)).Nodup) {f : Field ρ} {name k b s : List Char}
    (known : t.field? name = some f) (again : f.key ∈ changes.map (·.key))
    (each : List.Forall₂ (MemberText Named) texts members) (blank : Blank b)
    (named : Named k name) (opened : Opened '{' texts (b ++ k) s) :
    (record t).Refuses s (.data (.duplicateField f.key)) := by
  obtain ⟨b', blank', rfl⟩ := opened
  refine ⟨⟨_, _, rfl, rfl, by decide⟩, fun b'' rest blank'' => ?_⟩
  have more : separator texts.isEmpty ++ (b ++ (k ++ rest)) ≠ [] := by
    obtain ⟨s, -, rfl⟩ := named
    simp
  obtain ⟨c, bound, run⟩ := read_members takes distinct each blank'' blank' more
    fun some => ends_separator some _
  have seen : f.key ∈ (changes.map (·.key)).reverse := List.mem_reverse.2 again
  simp only [List.cons_append, List.append_assoc, joined_concat, Bool.true_and]
  rw [run, readMembers_duplicate blank named known seen]

theorem fails_member (takes : t.Takes members changes) (distinct : (changes.map (·.key)).Nodup)
    {f : Field ρ} {name k b b' b'' s v : List Char} (known : t.field? name = some f)
    (fresh : f.key ∉ changes.map (·.key)) (each : List.Forall₂ (MemberText Named) texts members)
    (blank : Blank b) (named : Named k name) (blank' : Blank b') (blank'' : Blank b'')
    (opened : Opened '{' texts (b ++ (k ++ (b' ++ ':' :: b''))) s) {e : Fault}
    (fails : f.FailsOn v e) : (record t).FailsOn (s ++ v) e := by
  obtain ⟨d, blank_d, rfl⟩ := opened
  refine ⟨⟨_, _, rfl, rfl, by decide⟩, fun d' blank_d' => ?_⟩
  have more : separator texts.isEmpty ++ (b ++ (k ++ (b' ++ ':' :: (b'' ++ v)))) ≠ [] := by
    obtain ⟨s, -, rfl⟩ := named
    simp
  obtain ⟨c, bound, run⟩ := read_members takes distinct each blank_d' blank_d more
    fun some => ends_separator some _
  have unseen : f.key ∉ (changes.map (·.key)).reverse := mt List.mem_reverse.1 fresh
  simp only [List.cons_append, List.append_assoc, joined_concat, Bool.true_and] at run ⊢
  rw [run, readMembers_known blank named known unseen]
  simp only [readColon_blank blank', bind, Except.bind, fails.read _ b'' blank'']

theorem refuses_member (takes : t.Takes members changes) (distinct : (changes.map (·.key)).Nodup)
    {f : Field ρ} {name k b b' b'' s v : List Char} (known : t.field? name = some f)
    (fresh : f.key ∉ changes.map (·.key)) (each : List.Forall₂ (MemberText Named) texts members)
    (blank : Blank b) (named : Named k name) (blank' : Blank b') (blank'' : Blank b'')
    (opened : Opened '{' texts (b ++ (k ++ (b' ++ ':' :: b''))) s) {e : Fault}
    (refuses : f.Refuses v e) : (record t).Refuses (s ++ v) e := by
  refine ⟨?_, fun d rest blank_d => ?_⟩
  · obtain ⟨d, -, rfl⟩ := opened
    exact ⟨_, _, rfl, rfl, by decide⟩
  · rw [List.append_assoc]
    exact (fails_member takes distinct known fresh each blank named blank' blank'' opened
      (refuses.failsOn rest)).read d blank_d

theorem rejects_member (takes : t.Takes members changes) (distinct : (changes.map (·.key)).Nodup)
    {f : Field ρ} {name m s v : List Char} (known : t.field? name = some f)
    (fresh : f.key ∉ changes.map (·.key)) (each : List.Forall₂ (MemberText Named) texts members)
    (member : MemberText Named m (name, v)) (rejects : f.Rejects v) {later : List (List Char)}
    (enclosed : Enclosed '{' '}' (texts ++ m :: later) s) : (record t).Rejects s := by
  obtain ⟨_, _, ⟨b, k, b', blank, named, blank', rfl⟩, ⟨d, v, d', blank_d, rfl, blank_d', rfl⟩,
    rfl⟩ := member
  have regrouped : b ++ (k ++ b') ++ ':' :: (d ++ (v ++ d')) =
      b ++ (k ++ (b' ++ ':' :: d)) ++ (v ++ d') := by simp
  rw [regrouped] at enclosed
  intro rest _
  obtain ⟨front, behind, opened, rfl, ends⟩ := enclosed.exists_opened (.inr rfl)
  obtain ⟨e, fails⟩ := rejects _ ((ends rest).of_blank blank_d')
  refine ⟨e, ?_⟩
  simp only [List.append_assoc]
  exact fails_member takes distinct known fresh each blank named blank' blank_d opened fails

end Objects

end Records

end Format

end BranchSim.Json
