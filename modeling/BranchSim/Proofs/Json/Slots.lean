import BranchSim.Proofs.Json.Positions
import Mathlib.Data.List.Count
import Mathlib.Data.List.Nodup
import Mathlib.Data.List.Pairwise
import Mathlib.Data.List.Perm.Basic

/-!
# Documents of records

What a document may give of a record is told by slots, one for each field: whether the document
gives the field, and how its value is spelled. An object gives the slots by their keys and in any
order, an array by position. Either is read as the same record, whose other fields are the initial
ones.
-/

namespace BranchSim.Json

/-! ## Slots -/

/-- A field as a document has it. If it is given, `right` are the texts for its value; `wrong` are
texts that are malformed already, whatever follows them. -/
structure Slot where
  key : String
  required : Bool
  right : Option (List Char → Prop)
  wrong : List Char → Prop

def Slot.of {γ : Type} (key : String) (required : Bool) (given : Option γ)
    (spelled : γ → List Char → Prop) : Slot where
  key := key
  required := required
  right := given.map spelled
  wrong := fun _ => False

def Shown {α : Type} [ToString α] (a : α) (v : List Char) : Prop :=
  v = (toString a).toList

def Holds (v : List Char) (slot : Slot) : Prop :=
  ∃ spelled, slot.right = some spelled ∧ spelled v

abbrev Members := Format.RecordType.Members

def Sound (slots : List Slot) (m : List Char × List Char) : Prop :=
  (∃ slot ∈ slots, slot.key.toList = m.1 ∧ Holds m.2 slot) ∨
    (∀ slot ∈ slots, slot.key.toList ≠ m.1) ∧ Value m.2

structure Gives (slots : List Slot) (members : Members) : Prop where
  sound : ∀ m ∈ members, Sound slots m
  once : ∀ slot ∈ slots,
    (members.map (·.1)).count slot.key.toList = if slot.right.isSome then 1 else 0

open Format

/-! ## Texts -/

inductive Form
  | object
  | array

/-- The text `s` gives the slots in an object, or in an array that has the first of them if the
others are not given. -/
def Form.Writes (slots : List Slot) (s : List Char) : Form → Prop
  | object => ∃ texts members, Enclosed '{' '}' texts s ∧
      List.Forall₂ (MemberText Named) texts members ∧ Gives slots members
  | array => ∃ texts given absent, Enclosed '[' ']' texts s ∧ slots = given ++ absent ∧
      List.Forall₂ (Padded Holds) texts given ∧ ∀ slot ∈ absent, slot.right = none

def OpensKey (slots : List Slot) (key : String) (s : List Char) : Prop :=
  ∃ texts members b k, List.Forall₂ (MemberText Named) texts members ∧ Gives slots members ∧
    Blank b ∧ Named k key.toList ∧ Opened '{' texts (b ++ k) s

inductive Opens (slots : List Slot) (slot : Slot) : List Char → Prop
  | member {texts : List (List Char)} {members : Members} {b k b' b'' s : List Char}
    (each : List.Forall₂ (MemberText Named) texts members) (gives : Gives slots members)
    (absent : slot.right = none) (blank : Blank b) (named : Named k slot.key.toList)
    (blank' : Blank b') (blank'' : Blank b'')
    (opened : Opened '{' texts (b ++ (k ++ (b' ++ ':' :: b''))) s) : Opens slots slot s
  | element {texts : List (List Char)} {before after : List Slot} {b s : List Char}
    (split : slots = before ++ slot :: after) (each : List.Forall₂ (Padded Holds) texts before)
    (blank : Blank b) (opened : Opened '[' texts b s) : Opens slots slot s

inductive Malformed (slots : List Slot) : List Char → Prop
  | overlong {texts : List (List Char)} {s : List Char}
    (each : List.Forall₂ (Padded Holds) texts slots) (unclosed : Enclosed '[' ',' texts s) :
    Malformed slots s
  | within {slot : Slot} {s v : List Char} (member : slot ∈ slots) (opens : Opens slots slot s)
    (wrong : slot.wrong v) : Malformed slots (s ++ v)

def Slot.nested {γ : Type} (key : String) (required : Bool) (given : Option γ) (form : Form)
    (slots : γ → List Slot) : Slot where
  key := key
  required := required
  right := given.map fun c v => form.Writes (slots c) v
  wrong := fun v => ∃ c, Malformed (slots c) v

/-! ## Slots of a record -/

namespace Format

section Records

variable {ρ : Type}

structure Fits (initial : ρ) (slot : Slot) (m : Change ρ) : Prop where
  key : slot.key = m.key
  required : slot.required = m.field.required
  accepts : ∀ v, Holds v slot → m.field.Accepts v m.update
  absent : slot.right = none → m.update initial = initial
  refuses : ∀ v, slot.wrong v → m.field.Refuses v .malformed

theorem fits_of {α : Type} {f : Format α} {initial : ρ} {key : String} {required : Bool}
    {given : Option α} {spelled : α → List Char → Prop} {get : ρ → α} {set : ρ → α → ρ}
    (accepts : ∀ a v, spelled a v → f.Accepts v a) (same : set initial (get initial) = initial) :
    Fits initial (.of key required given spelled)
      ⟨.of key required f get set, fun r => set r (given.getD (get initial))⟩ where
  key := rfl
  required := rfl
  accepts v holds := by
    obtain ⟨P, right, spells⟩ := holds
    obtain ⟨a, rfl, rfl⟩ := Option.map_eq_some_iff.1 right
    exact (accepts a v spells).field
  absent missing := by
    rw [Option.map_eq_none_iff.1 missing]
    exact same
  refuses v := False.elim

structure RecordType.Has (t : RecordType ρ) (slots : List Slot) (changes : List (Change ρ)) :
    Prop where
  regular : t.Regular
  fits : List.Forall₂ (Fits t.initial) slots changes
  all : changes.map (·.field) = t.fields
  commute : changes.Pairwise fun m m' => ∀ r, m.update (m'.update r) = m'.update (m.update r)

namespace RecordType.Has

variable {t : RecordType ρ} {slots : List Slot} {changes : List (Change ρ)}

theorem mem_fields (has : t.Has slots changes) {m : Change ρ} (member : m ∈ changes) :
    m.field ∈ t.fields :=
  has.all ▸ List.mem_map_of_mem member

theorem known (has : t.Has slots changes) {m : Change ρ} (member : m ∈ changes) :
    t.field? m.key.toList = some m.field :=
  has.regular.field?_key (has.mem_fields member)

theorem distinct (has : t.Has slots changes) : (changes.map (·.key)).Nodup :=
  has.regular.distinct_changes has.all

theorem exists_slot (has : t.Has slots changes) {m : Change ρ} (member : m ∈ changes) :
    ∃ slot ∈ slots, Fits t.initial slot m :=
  exists_of_forall₂ has.fits.flip m member

/-! ### Changes in any order -/

theorem applied_append (changes later : List (Change ρ)) (r : ρ) :
    applied (changes ++ later) r = applied later (applied changes r) :=
  List.foldl_append

theorem applied_eq_self {changes : List (Change ρ)} {r : ρ}
    (same : ∀ m ∈ changes, m.update r = r) : applied changes r = r := by
  induction changes with
  | nil => rfl
  | cons m changes ih =>
      obtain ⟨here, later⟩ := List.forall_mem_cons.1 same
      rw [applied, List.foldl_cons, here]
      exact ih later

theorem applied_perm (has : t.Has slots changes) {others : List (Change ρ)}
    (perm : others.Perm changes) (r : ρ) : applied others r = applied changes r := by
  -- A change also commutes with itself, which the pairs of a list leave out.
  have swap := has.commute.imp fun commute r => (commute r).symm
  have commute := List.Pairwise.forall_of_forall_of_flip (fun _ _ _ => rfl) has.commute swap
  exact perm.foldl_eq' (fun m member m' member' r =>
    commute (perm.mem_iff.1 member') (perm.mem_iff.1 member) r) r

theorem eq_of_key (has : t.Has slots changes) {m m' : Change ρ} (member : m ∈ changes)
    (member' : m' ∈ changes) (same : m.key = m'.key) : m = m' :=
  List.inj_on_of_nodup_map has.distinct member member' same

theorem applied_of_idle (has : t.Has slots changes) {idle made : List (Change ρ)}
    (perm : (idle ++ made).Perm changes) (same : ∀ m ∈ idle, m.update t.initial = t.initial) :
    applied made t.initial = applied changes t.initial := by
  rw [← has.applied_perm perm, applied_append, applied_eq_self same]

theorem applied_of_absent (has : t.Has slots changes) {made : List (Change ρ)}
    (distinct : (made.map (·.key)).Nodup) (among : ∀ m ∈ made, m ∈ changes)
    (absent : ∀ m ∈ changes, m.key ∉ made.map (·.key) → m.update t.initial = t.initial) :
    applied made t.initial = applied changes t.initial := by
  -- Those that are not made, in front of those that are, are all changes in another order.
  have nodup : ((changes.filter fun m => m.key ∉ made.map (·.key)) ++ made).Nodup := by
    refine List.nodup_append.2 ⟨(has.distinct.of_map _).filter _, distinct.of_map _, ?_⟩
    rintro m member _ made rfl
    exact of_decide_eq_true (List.mem_filter.1 member).2 (List.mem_map_of_mem made)
  have perm : ((changes.filter fun m => m.key ∉ made.map (·.key)) ++ made).Perm changes := by
    refine (List.perm_ext_iff_of_nodup nodup (has.distinct.of_map _)).2 fun m => ?_
    rw [List.mem_append, List.mem_filter]
    constructor
    · rintro (⟨member, -⟩ | member)
      · exact member
      · exact among m member
    · intro member
      by_cases present : m.key ∈ made.map (·.key)
      · obtain ⟨m', here, same⟩ := List.mem_map.1 present
        obtain rfl := has.eq_of_key (among m' here) member same
        exact .inr here
      · exact .inl ⟨member, decide_eq_true present⟩
  refine has.applied_of_idle perm fun m member => ?_
  obtain ⟨here, unmade⟩ := List.mem_filter.1 member
  exact absent m here (of_decide_eq_true unmade)

theorem exists_split {before after : List Slot} (has : t.Has (before ++ after) changes) :
    ∃ made left, changes = made ++ left ∧ List.Forall₂ (Fits t.initial) before made ∧
      List.Forall₂ (Fits t.initial) after left ∧
      t.fields = made.map (·.field) ++ left.map (·.field) := by
  obtain ⟨made, left, rfl, first, second⟩ := exists_append_of_forall₂ has.fits
  exact ⟨made, left, rfl, first, second, has.all.symm.trans List.map_append⟩

/-! ### Members -/

theorem exists_takes (has : t.Has slots changes) {members : Members}
    (sound : ∀ m ∈ members, Sound slots m) :
    ∃ made, t.Takes members made ∧ (∀ m ∈ made, m ∈ changes) ∧ ∀ m ∈ changes,
      (made.map (·.key)).count m.key = (members.map (·.1)).count m.key.toList := by
  induction members with
  | nil => exact ⟨[], .nil, fun _ member => absurd member List.not_mem_nil, fun _ _ => rfl⟩
  | cons member members ih =>
      obtain ⟨name, v⟩ := member
      obtain ⟨here, later⟩ := List.forall_mem_cons.1 sound
      obtain ⟨made, takes, among, counts⟩ := ih later
      rcases here with ⟨slot, given, keyed, holds⟩ | ⟨unknown, value⟩
      · obtain ⟨m, member, fits⟩ := exists_of_forall₂ has.fits slot given
        obtain rfl : m.key.toList = name := fits.key ▸ keyed
        refine ⟨m :: made, .read (has.known member) (fits.accepts v holds) takes,
          List.forall_mem_cons.2 ⟨member, among⟩, fun m' member' => ?_⟩
        -- Both counts go up for the key of `m` and for no other.
        simp only [List.map_cons, List.count_cons, counts m' member', beq_iff_eq,
          String.toList_inj]
      · have other : ∀ m ∈ changes, m.key.toList ≠ name := by
          intro m member
          obtain ⟨slot, known, fits⟩ := has.exists_slot member
          exact fits.key ▸ unknown slot known
        have unknown : t.field? name = none := by
          apply field?_eq_none
          rw [← has.all]
          exact List.forall_mem_map.2 other
        refine ⟨made, .skip unknown value takes, among, fun m member => ?_⟩
        rw [counts m member, List.map_cons, List.count_cons_of_ne (other m member).symm]

theorem nodup_of_count_le {made : List (Change ρ)} (among : ∀ m ∈ made, m ∈ changes)
    (once : ∀ m ∈ changes, (made.map (·.key)).count m.key ≤ 1) : (made.map (·.key)).Nodup := by
  refine List.nodup_iff_count_le_one.2 fun key => ?_
  by_cases present : key ∈ made.map (·.key)
  · obtain ⟨m, here, rfl⟩ := List.mem_map.1 present
    exact once m (among m here)
  · rw [List.count_eq_zero.2 present]
    exact Nat.zero_le 1

theorem exists_made (has : t.Has slots changes) {members : Members} (gives : Gives slots members) :
    ∃ made, t.Takes members made ∧ (made.map (·.key)).Nodup ∧
      applied made t.initial = applied changes t.initial ∧
      ∀ slot ∈ slots, slot.key ∈ made.map (·.key) ↔ slot.right.isSome := by
  obtain ⟨made, takes, among, counts⟩ := has.exists_takes gives.sound
  have counted {slot : Slot} {m : Change ρ} (given : slot ∈ slots) (member : m ∈ changes)
      (fits : Fits t.initial slot m) :
      (made.map (·.key)).count m.key = if slot.right.isSome then 1 else 0 := by
    rw [counts m member, ← gives.once slot given, fits.key]
  have distinct := nodup_of_count_le among fun m member => by
    obtain ⟨slot, given, fits⟩ := has.exists_slot member
    rw [counted given member fits]
    split <;> decide
  have present : ∀ slot ∈ slots, slot.key ∈ made.map (·.key) ↔ slot.right.isSome := by
    intro slot given
    obtain ⟨m, member, fits⟩ := exists_of_forall₂ has.fits slot given
    rw [fits.key, ← List.count_pos_iff, counted given member fits]
    cases slot.right <;> simp
  refine ⟨made, takes, distinct, has.applied_of_absent distinct among ?_, present⟩
  intro m member unmade
  obtain ⟨slot, given, fits⟩ := has.exists_slot member
  have absent := (present slot given).not.1 (fits.key ▸ unmade)
  exact fits.absent (Option.not_isSome_iff_eq_none.1 absent)

theorem missing?_eq (has : t.Has slots changes) {keys : List String}
    (present : ∀ slot ∈ slots, slot.key ∈ keys ↔ slot.right.isSome) {slot : Slot}
    (first : slots.find? (fun slot => slot.required && slot.right.isNone) = some slot) :
    ∃ f, t.missing? keys = some f ∧ f.key = slot.key := by
  have agree : ∀ slot ∈ slots, ∀ m, Fits t.initial slot m →
      (slot.required && slot.right.isNone) = (m.field.required && !keys.contains m.key) := by
    intro slot given m fits
    have unmade : slot.right.isNone = !keys.contains m.key := by
      rw [← Option.not_isSome, ← fits.key, Bool.not_inj_iff, Bool.eq_iff_iff, List.contains_iff_mem]
      exact (present slot given).symm
    rw [fits.required, unmade]
  obtain ⟨m, missing, fits⟩ := find?_of_forall₂ has.fits agree first
  refine ⟨m.field, ?_, fits.key.symm⟩
  rw [missing?, ← has.all, List.find?_map]
  exact congrArg (Option.map Change.field) missing

end RecordType.Has

theorem fills_of_holds {texts : List (List Char)} {given : List Slot} {made : List (Change ρ)}
    {initial : ρ} (each : List.Forall₂ (Padded Holds) texts given)
    (fits : List.Forall₂ (Fits initial) given made) : Fills texts made := by
  induction each generalizing made with
  | nil =>
      cases fits
      exact .nil
  | cons padded _ ih =>
      obtain _ | ⟨fit, fits⟩ := fits
      exact .cons (padded.mono fit.accepts) (ih fits)

inductive Matches (initial : ρ) : List (Field ρ) → List Slot → List (ρ → ρ) → Prop
  | nil : Matches initial [] [] []
  | cons {f : Field ρ} {slot : Slot} {update : ρ → ρ} {fields : List (Field ρ)} {slots : List Slot}
    {updates : List (ρ → ρ)} (fits : Fits initial slot ⟨f, update⟩)
    (later : Matches initial fields slots updates) :
    Matches initial (f :: fields) (slot :: slots) (update :: updates)

theorem Matches.exists_changes {initial : ρ} {fields : List (Field ρ)} {slots : List Slot}
    {updates : List (ρ → ρ)} (each : Matches initial fields slots updates) :
    ∃ changes : List (Change ρ), List.Forall₂ (Fits initial) slots changes ∧
      changes.map (·.field) = fields ∧ changes.map (·.update) = updates := by
  induction each with
  | nil => exact ⟨[], .nil, rfl, rfl⟩
  | cons fits _ ih =>
      obtain ⟨changes, fit, rfl, rfl⟩ := ih
      exact ⟨_ :: changes, .cons fits fit, rfl, rfl⟩

/-! ## Reading -/

structure OfRecord (f : Format ρ) where
  type : RecordType ρ
  format_eq : f = record type

def RecordType.Makes (t : RecordType ρ) (slots : List Slot) (a : ρ) : Prop :=
  ∃ changes, t.Has slots changes ∧ applied changes t.initial = a

theorem RecordType.Makes.of_matches {t : RecordType ρ} {slots : List Slot}
    {updates : List (ρ → ρ)} {a : ρ} (regular : t.Regular)
    (each : Matches t.initial t.fields slots updates)
    (commute : updates.Pairwise fun u u' => ∀ r, u (u' r) = u' (u r))
    (made : updates.foldl (fun r update => update r) t.initial = a) : t.Makes slots a := by
  obtain ⟨changes, fits, all, rfl⟩ := each.exists_changes
  refine ⟨changes, ⟨regular, fits, all, List.pairwise_map.1 commute⟩, ?_⟩
  rw [← made, List.foldl_map]
  rfl

inductive Reads : Format ρ → List Slot → ρ → Prop
  | record {t : RecordType ρ} {slots : List Slot} {changes : List (Change ρ)} {a : ρ}
    (has : t.Has slots changes) (made : applied changes t.initial = a) : Reads (record t) slots a

theorem RecordType.Makes.reads {t : RecordType ρ} {slots : List Slot} {a : ρ}
    (makes : t.Makes slots a) : (Format.record t).Reads slots a := by
  obtain ⟨changes, has, made⟩ := makes
  exact .record has made

namespace Reads

variable {f : Format ρ} {slots : List Slot} {a : ρ} {s : List Char}

theorem delimits (reads : f.Reads slots a)
    (complete : ∀ slot ∈ slots, slot.required → slot.right.isSome) {form : Form}
    (writes : form.Writes slots s) : f.Delimits s a := by
  obtain @⟨t, _, _, _, has, rfl⟩ := reads
  cases form with
  | object =>
      obtain ⟨texts, members, enclosed, each, gives⟩ := writes
      obtain ⟨made, takes, distinct, same, present⟩ := has.exists_made gives
      rw [← same]
      refine delimits_object takes distinct (fun f known required => ?_) each enclosed
      rw [← has.all] at known
      obtain ⟨m, member, rfl⟩ := List.mem_map.1 known
      obtain ⟨slot, given, fits⟩ := has.exists_slot member
      have there := complete slot given (fits.required ▸ required)
      have made : m.key ∈ made.map (·.key) := fits.key ▸ (present slot given).2 there
      exact made
  | array =>
      obtain ⟨texts, given, absent, enclosed, rfl, each, missing⟩ := writes
      obtain ⟨made, left, rfl, first, second, all⟩ := has.exists_split
      have idle : ∀ m ∈ left, m.update t.initial = t.initial ∧ m.field.required = false := by
        intro m later
        obtain ⟨slot, unset, fits⟩ := exists_of_forall₂ second.flip m later
        have unneeded : slot.required = false := by
          by_contra required
          have there := complete slot (List.mem_append_right _ unset) (by simpa using required)
          rw [missing slot unset] at there
          cases there
        exact ⟨fits.absent (missing slot unset), fits.required ▸ unneeded⟩
      rw [← has.applied_of_idle List.perm_append_comm fun m later => (idle m later).1]
      exact delimits_array (fills_of_holds each first) all
        (List.forall_mem_map.2 fun m later => (idle m later).2) enclosed

theorem refuses_missing (reads : f.Reads slots a) {slot : Slot}
    (first : slots.find? (fun slot => slot.required && slot.right.isNone) = some slot)
    (writes : Form.object.Writes slots s) : f.Refuses s (.data (.missingField slot.key)) := by
  obtain ⟨has, rfl⟩ := reads
  obtain ⟨texts, members, enclosed, each, gives⟩ := writes
  obtain ⟨made, takes, distinct, -, present⟩ := has.exists_made gives
  obtain ⟨f, missing, keyed⟩ := has.missing?_eq present first
  rw [← keyed]
  exact Format.refuses_missing takes distinct missing each enclosed

theorem refuses_duplicate (reads : f.Reads slots a) {slot : Slot} (given : slot ∈ slots)
    (there : slot.right.isSome) (opens : OpensKey slots slot.key s) :
    f.Refuses s (.data (.duplicateField slot.key)) := by
  obtain ⟨has, rfl⟩ := reads
  obtain ⟨texts, members, b, k, each, gives, blank, named, opened⟩ := opens
  obtain ⟨made, takes, distinct, -, present⟩ := has.exists_made gives
  obtain ⟨m, member, fits⟩ := exists_of_forall₂ has.fits slot given
  have again : m.key ∈ made.map (·.key) := fits.key ▸ (present slot given).2 there
  rw [fits.key] at named ⊢
  exact Format.refuses_duplicate takes distinct (has.known member) again each blank named opened

theorem refuses_malformed (reads : f.Reads slots a) (malformed : Malformed slots s) :
    f.Refuses s .malformed := by
  obtain ⟨has, rfl⟩ := reads
  cases malformed with
  | overlong each unclosed =>
      exact refuses_overlong (fills_of_holds each has.fits) has.all.symm unclosed
  | @within slot s v given opens wrong =>
      cases opens with
      | member each gives absent blank named blank' blank'' opened =>
          obtain ⟨made, takes, distinct, -, present⟩ := has.exists_made gives
          obtain ⟨m, member, fits⟩ := exists_of_forall₂ has.fits slot given
          have fresh : m.key ∉ made.map (·.key) := by
            rw [← fits.key, present slot given, absent]
            exact Bool.false_ne_true
          rw [fits.key] at named
          exact refuses_member takes distinct (has.known member) fresh each blank named blank'
            blank'' opened (fits.refuses v wrong)
      | element split each blank opened =>
          obtain rfl := split
          obtain ⟨made, left, rfl, first, second, all⟩ := has.exists_split
          obtain _ | ⟨fit, -⟩ := second
          exact refuses_element (fills_of_holds each first) all blank opened (fit.refuses v wrong)

end Reads

theorem fits_nested {α γ : Type} {f : Format α} {initial : ρ} {key : String} {required : Bool}
    {given : Option γ} {form : Form} {slots : γ → List Slot} {value : γ → α} {get : ρ → α}
    {set : ρ → α → ρ} (reads : ∀ c, f.Reads (slots c) (value c))
    (complete : ∀ c, ∀ slot ∈ slots c, slot.required → slot.right.isSome)
    (same : set initial (get initial) = initial) :
    Fits initial (.nested key required given form slots)
      ⟨.of key required f get set, fun r => set r ((given.map value).getD (get initial))⟩ where
  key := rfl
  required := rfl
  accepts v holds := by
    obtain ⟨P, right, writes⟩ := holds
    obtain ⟨c, rfl, rfl⟩ := Option.map_eq_some_iff.1 right
    exact ((reads c).delimits (complete c) writes).accepts.field
  absent missing := by
    rw [Option.map_eq_none_iff.1 missing]
    exact same
  refuses v malformed := by
    obtain ⟨c, malformed⟩ := malformed
    exact ((reads c).refuses_malformed malformed).field

end Records

end Format

end BranchSim.Json
