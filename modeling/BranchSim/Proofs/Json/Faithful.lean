import BranchSim.Proofs.Json.Cut

namespace BranchSim.Json.Format

structure Faithful {α : Type} (f : Format α) : Prop where
  accepts : ∀ a, f.Accepts (f.write a) a
  runsOut : ∀ a, f.RunsOut (f.write a)
  ascii : ∀ a, Ascii (f.write a)

structure Delimiting {α : Type} (f : Format α) : Prop where
  delimits : ∀ a, f.Delimits (f.write a) a
  truncates : ∀ a, f.Truncates (f.write a)
  ascii : ∀ a, Ascii (f.write a)

theorem Delimiting.faithful {α : Type} {f : Format α} (delimiting : f.Delimiting) : f.Faithful where
  accepts a := (delimiting.delimits a).accepts
  runsOut a := (delimiting.truncates a).runsOut
  ascii := delimiting.ascii

theorem Faithful.decode_encode {α : Type} {f : Format α} (faithful : f.Faithful) (a : α) :
    f.decode (f.encode a) = .ok a :=
  (faithful.accepts a).decode (padded_self rfl)

theorem Faithful.encode_injective {α : Type} {f : Format α} (faithful : f.Faithful) {a b : α}
    (same : f.encode a = f.encode b) : a = b := by
  have read := faithful.decode_encode a
  rw [same, faithful.decode_encode] at read
  exact (Except.ok.inj read).symm

theorem Faithful.decode_blank {α : Type} {f : Format α} (faithful : f.Faithful) (a : α)
    {b : List Char} (blank : Blank b) : f.decode (f.encode a ++ b) = .ok a :=
  (faithful.accepts a).decode ⟨[], _, b, blank_nil, rfl, blank, rfl⟩

theorem Delimiting.decode_cut {α : Type} {f : Format α} (delimiting : f.Delimiting) (a : α)
    {p : List Char} (cut : Cut p (f.encode a)) : f.decode p = .error .truncated := by
  unfold Format.decode
  simp only [delimiting.truncates a p cut, bind, Except.bind]

theorem Delimiting.decode_append {α : Type} {f : Format α} (delimiting : f.Delimiting) (a : α)
    {s : List Char} (more : ¬ Blank s) : f.decode (f.encode a ++ s) = .error .malformed :=
  (delimiting.delimits a).decode_append more

theorem faithful_boolean : boolean.Faithful where
  accepts := accepts_boolean
  runsOut b := (truncates_boolean b).runsOut
  ascii b := by
    cases b with
    | true => exact (by decide : Plain "true".toList).ascii
    | false => exact (by decide : Plain "false".toList).ascii

theorem ascii_toDigits (n : Nat) : Ascii (Nat.toDigits 10 n) :=
  .of_isDigit (numeral_toDigits n).digits

theorem faithful_word64 (expected : String) : (word64 expected).Faithful where
  accepts := accepts_word64 expected
  runsOut w := (runsOut_decimal expected w.toNat_lt_size (Nat.le_refl UInt64.size)).map _ _
  ascii w := ascii_toDigits w.toNat

theorem faithful_word32 (expected : String) : (word32 expected).Faithful where
  accepts := accepts_word32 expected
  runsOut w := (runsOut_decimal expected w.toNat_lt_size (by decide)).map _ _
  ascii w := ascii_toDigits w.toNat

theorem faithful_variants {α : Type} {names : List (String × α)} {name : α → String}
    (plain : ∀ a, Plain (name a).toList) (known : ∀ a, names.lookup (name a) = some a) :
    (variants names name).Faithful where
  accepts a := (delimits_variant name (known a) (named_quoted (plain a))).accepts
  runsOut a := (truncates_variant name (plain a)).runsOut
  ascii a := ascii_quoted (plain a)

theorem ascii_joined {items : List (List Char)} (ascii : ∀ s ∈ items, Ascii s) (first : Bool) :
    Ascii (joined first items) := by
  induction items generalizing first with
  | nil => exact .nil
  | cons s items ih =>
      obtain ⟨here, later⟩ := List.forall_mem_cons.1 ascii
      cases first with
      | true => exact here.append (ih later false)
      | false => exact .cons (by decide) (here.append (ih later false))

theorem ascii_bracketed {opening closing : Char} (start : opening.toNat < 0x80)
    (stop : closing.toNat < 0x80) {items : List (List Char)} (ascii : ∀ s ∈ items, Ascii s) :
    Ascii (bracketed opening closing items) := by
  rw [bracketed_eq]
  exact .cons start ((ascii_joined ascii true).append (.cons stop .nil))

theorem Faithful.padded {α : Type} {item : Format α} (faithful : item.Faithful) (as : List α) :
    List.Forall₂ (Padded item.Accepts) (as.map item.write) as := by
  rw [List.forall₂_map_left_iff, List.forall₂_same]
  exact fun a _ => padded_self (faithful.accepts a)

theorem Faithful.truncates_list {α : Type} {item : Format α} (faithful : item.Faithful)
    (as : List α) : (Format.list item).Truncates ((Format.list item).write as) := by
  intro p cut
  have written : (Format.list item).write as = '[' :: (joined true (as.map item.write) ++ [']']) :=
    bracketed_eq ..
  rw [written] at cut
  rcases cut.cons with rfl | ⟨p, rfl, inside⟩
  · rfl
  · obtain ⟨before, after, q, split, rfl, part⟩ := cut_joined inside
    obtain ⟨as, later, rfl, rfl, rfl⟩ := List.map_eq_append_iff.1 split
    have solid := forall_of_forall₂ (faithful.padded as) fun _ _ => padded_ne_nil
    have run := readElements_joined (faithful.padded as) (length_le_joined_append solid true q) true
      (ends_part part)
    have read : (Format.list item).read ('[' :: (joined true (as.map item.write) ++ q)) = _ :=
      read_list blank_nil _
    rw [read, run]
    rcases part with rfl | ⟨s, _, here, short⟩
    · rw [readElements_nil]
      rfl
    · obtain ⟨a, _, rfl, rfl, -⟩ := List.map_eq_cons_iff.1 here
      rw [(faithful.runsOut a).readElements (faithful.accepts a).starts _ short]
      rfl

theorem Faithful.list {α : Type} {item : Format α} (faithful : item.Faithful) :
    (Format.list item).Delimiting where
  delimits as := delimits_list (faithful.padded as) (enclosed_bracketed ..)
  truncates := faithful.truncates_list
  ascii as := by
    apply ascii_bracketed (by decide) (by decide)
    intro s member
    obtain ⟨a, -, rfl⟩ := List.mem_map.1 member
    exact faithful.ascii a

section Records

variable {ρ : Type} {t : RecordType ρ}

/-- What the field writes of one record, it copies to any other. -/
structure Field.Faithful (f : Field ρ) (copy : ρ → ρ → ρ) : Prop where
  accepts : ∀ a, f.Accepts (f.write a) fun r => copy r a
  runsOut : ∀ a, f.RunsOut (f.write a)
  ascii : ∀ a, Ascii (f.write a)

theorem Faithful.field {α : Type} {f : Format α} (faithful : f.Faithful) {key : String}
    {required : Bool} {get : ρ → α} {set : ρ → α → ρ} :
    (Field.of key required f get set).Faithful fun r a => set r (get a) where
  accepts a := (faithful.accepts (get a)).field
  runsOut a := (faithful.runsOut (get a)).field
  ascii a := faithful.ascii (get a)

def written (a : ρ) (f : Field ρ) : List Char :=
  quoted f.key ++ ':' :: f.write a

def Copies (t : RecordType ρ) (a : ρ) (changes : List (Change ρ)) : Prop :=
  ∀ m ∈ changes, m.field ∈ t.fields ∧ m.field.Accepts (m.field.write a) m.update

theorem exists_copies {fields : List (Field ρ)} {copies : List (ρ → ρ → ρ)}
    (each : List.Forall₂ Field.Faithful fields copies) (known : ∀ f ∈ fields, f ∈ t.fields)
    (a : ρ) :
    ∃ changes, Copies t a changes ∧ changes.map (·.field) = fields ∧
      ∀ r, applied changes r = copies.foldl (fun r copy => copy r a) r := by
  induction each with
  | nil => exact ⟨[], fun _ member => absurd member List.not_mem_nil, rfl, fun _ => rfl⟩
  | @cons f copy fields copies faithful _ ih =>
      obtain ⟨here, later⟩ := List.forall_mem_cons.1 known
      obtain ⟨changes, others, rfl, same⟩ := ih later
      refine ⟨⟨f, fun r => copy r a⟩ :: changes, ?_, rfl, fun r => same (copy r a)⟩
      exact List.forall_mem_cons.2 ⟨⟨here, faithful.accepts a⟩, others⟩

theorem write_record {changes : List (Change ρ)} (all : changes.map (·.field) = t.fields) (a : ρ) :
    (record t).write a = bracketed '{' '}' (changes.map fun m => written a m.field) := by
  have members : changes.map (fun m => written a m.field) = t.fields.map (written a) := by
    rw [← all, List.map_map]
    rfl
  rw [members]
  rfl

namespace Copies

variable {a : ρ} {changes : List (Change ρ)}

theorem takes (copies : Copies t a changes) (regular : t.Regular) :
    t.Takes (changes.map fun m => (m.key.toList, m.field.write a)) changes := by
  induction changes with
  | nil => exact .nil
  | cons m changes ih =>
      obtain ⟨⟨known, accepts⟩, later⟩ := List.forall_mem_cons.1 copies
      exact .read (regular.field?_key known) accepts (ih later)

theorem texts (copies : Copies t a changes) (regular : t.Regular) :
    List.Forall₂ (MemberText Named) (changes.map fun m => written a m.field)
      (changes.map fun m => (m.key.toList, m.field.write a)) := by
  rw [List.forall₂_map_left_iff, List.forall₂_map_right_iff, List.forall₂_same]
  intro m member
  exact memberText_quoted (regular.plain _ (copies m member).1) _

theorem delimits (copies : Copies t a changes) (regular : t.Regular)
    (all : changes.map (·.field) = t.fields) :
    (record t).Delimits ((record t).write a) (applied changes t.initial) := by
  have complete : ∀ f ∈ t.fields, f.required → f.key ∈ changes.map (·.key) := by
    intro f known _
    rw [← all] at known
    obtain ⟨m, member, rfl⟩ := List.mem_map.1 known
    exact List.mem_map_of_mem member
  rw [write_record all]
  exact delimits_object (copies.takes regular) (regular.distinct_changes all) complete
    (copies.texts regular) (enclosed_bracketed ..)

theorem truncates (copies : Copies t a changes) (regular : t.Regular)
    (all : changes.map (·.field) = t.fields)
    (runsOut : ∀ m ∈ changes, m.field.RunsOut (m.field.write a)) :
    (record t).Truncates ((record t).write a) := by
  intro p cut
  have distinct := regular.distinct_changes all
  rw [write_record all, bracketed_eq] at cut
  rcases cut.cons with rfl | ⟨p, rfl, inside⟩
  · rfl
  · obtain ⟨before, after, q, split, rfl, part⟩ := cut_joined inside
    obtain ⟨before, after, rfl, rfl, rfl⟩ := List.map_eq_append_iff.1 split
    have first : Copies t a before := fun m member => copies m (List.mem_append_left _ member)
    rw [List.map_append] at distinct
    obtain ⟨fresh, -, apart⟩ := List.nodup_append.1 distinct
    have solid := forall_of_forall₂ (first.texts regular) fun _ _ => memberText_ne_nil
    rw [← List.append_nil (before.map Change.key)] at fresh
    have run := RecordType.readMembers_joined (first.takes regular) fresh (first.texts regular)
      (length_le_joined_append solid true q) true t.initial (ends_part part)
    have read : (record t).read
        ('{' :: (joined true (before.map fun m => written a m.field) ++ q)) = _ :=
      read_object blank_nil _
    rw [read, run]
    -- The members in front are whole; the text stops before the next one or within it.
    rcases part with rfl | ⟨s, _, here, short⟩
    · rw [RecordType.readMembers_nil]
    · obtain ⟨m, left, rfl, rfl, -⟩ := List.map_eq_cons_iff.1 here
      have member : m ∈ before ++ m :: left := List.mem_append_right _ (List.mem_cons_self ..)
      have known := (copies m member).1
      have unseen : m.key ∉ (before.map Change.key).reverse ++ [] := by
        rw [List.append_nil, List.mem_reverse]
        exact fun again => apart _ again _ (List.mem_cons_self ..) rfl
      exact RecordType.readMembers_cut (regular.plain _ known) (regular.field?_key known) unseen
        (runsOut m member) _ _ short

end Copies

theorem delimiting_record (regular : t.Regular) {copies : List (ρ → ρ → ρ)}
    (each : List.Forall₂ Field.Faithful t.fields copies)
    (restores : ∀ a, copies.foldl (fun r copy => copy r a) t.initial = a) :
    (record t).Delimiting where
  delimits a := by
    obtain ⟨changes, copied, all, same⟩ := exists_copies each (fun _ member => member) a
    have delimits := copied.delimits regular all
    rw [same, restores] at delimits
    exact delimits
  truncates a := by
    obtain ⟨changes, copied, all, -⟩ := exists_copies each (fun _ member => member) a
    refine copied.truncates regular all fun m member => ?_
    obtain ⟨copy, -, faithful⟩ := exists_of_forall₂ each _ (copied m member).1
    exact faithful.runsOut a
  ascii a := by
    apply ascii_bracketed (by decide) (by decide)
    intro s member
    obtain ⟨f, here, rfl⟩ := List.mem_map.1 member
    obtain ⟨copy, -, faithful⟩ := exists_of_forall₂ each f here
    exact (ascii_quoted (regular.plain _ here)).append (.cons (by decide) (faithful.ascii a))

theorem faithful_record (regular : t.Regular) {copies : List (ρ → ρ → ρ)}
    (each : List.Forall₂ Field.Faithful t.fields copies)
    (restores : ∀ a, copies.foldl (fun r copy => copy r a) t.initial = a) : (record t).Faithful :=
  (delimiting_record regular each restores).faithful

end Records

end BranchSim.Json.Format
