import BranchSim.Json.Format
import BranchSim.Proofs.Json.Numeral
import Mathlib.Data.List.Forall2
import Mathlib.Data.List.TakeWhile

namespace BranchSim.Json

def Blank (s : List Char) : Prop :=
  ∀ c ∈ s, isBlank c

instance (s : List Char) : Decidable (Blank s) :=
  List.decidableBAll _ s

theorem blank_nil : Blank [] := by
  intro c member
  cases member

theorem blank_append {s t : List Char} : Blank (s ++ t) ↔ Blank s ∧ Blank t :=
  List.forall_mem_append

theorem blank_cons {c : Char} {s : List Char} : Blank (c :: s) ↔ isBlank c ∧ Blank s :=
  List.forall_mem_cons

theorem skipBlanks_cons {c : Char} (solid : isBlank c = false) (s : List Char) :
    skipBlanks (c :: s) = c :: s := by
  simp [skipBlanks, solid]

theorem skipBlanks_append {b : List Char} (blank : Blank b) (s : List Char) :
    skipBlanks (b ++ s) = skipBlanks s :=
  List.dropWhile_append_of_pos blank

theorem skipBlanks_eq_nil_iff {s : List Char} : skipBlanks s = [] ↔ Blank s :=
  List.dropWhile_eq_nil_iff

theorem Ends.of_blank {b rest : List Char} (blank : Blank b) (ends : Ends rest) :
    Ends (b ++ rest) := by
  intro c member
  cases b with
  | nil => exact ends c member
  | cons d b =>
      obtain rfl := Option.some.inj member
      exact .inl (blank _ (List.mem_cons_self ..))

/-- The first character of a text is none that the search for the next element would take away. -/
def Starts (s : List Char) : Prop :=
  ∃ c cs, s = c :: cs ∧ isBlank c = false ∧ c ≠ ']'

theorem Starts.ne_nil {s : List Char} (starts : Starts s) : s ≠ [] := by
  obtain ⟨c, cs, rfl, -⟩ := starts
  exact List.cons_ne_nil c cs

theorem Starts.append {s : List Char} (starts : Starts s) (t : List Char) : Starts (s ++ t) := by
  obtain ⟨c, cs, rfl, solid⟩ := starts
  exact ⟨c, cs ++ t, rfl, solid⟩

def Padded {α : Type} (R : List Char → α → Prop) (s : List Char) (a : α) : Prop :=
  ∃ b t b', Blank b ∧ R t a ∧ Blank b' ∧ s = b ++ (t ++ b')

theorem padded_self {α : Type} {R : List Char → α → Prop} {s : List Char} {a : α}
    (related : R s a) : Padded R s a :=
  ⟨[], s, [], blank_nil, related, blank_nil, by simp⟩

theorem Padded.mono {α β : Type} {R : List Char → α → Prop} {S : List Char → β → Prop}
    {s : List Char} {a : α} {a' : β} (padded : Padded R s a) (maps : ∀ t, R t a → S t a') :
    Padded S s a' := by
  obtain ⟨b, t, b', blank, related, blank', rfl⟩ := padded
  exact ⟨b, t, b', blank, maps t related, blank', rfl⟩

def MemberText {κ : Type} (Key : List Char → κ → Prop) (s : List Char) (m : κ × List Char) : Prop :=
  ∃ k v, Padded Key k m.1 ∧ Padded Eq v m.2 ∧ s = k ++ ':' :: v

theorem readColon_blank {b : List Char} (blank : Blank b) (s : List Char) :
    readColon (b ++ ':' :: s) = .ok s := by
  rw [readColon, skipBlanks_append blank, skipBlanks_cons rfl]
  rfl

theorem exists_of_forall₂ {α β : Type} {R : α → β → Prop} {as : List α} {bs : List β}
    (each : List.Forall₂ R as bs) : ∀ a ∈ as, ∃ b ∈ bs, R a b := by
  induction each with
  | nil => exact fun a member => absurd member List.not_mem_nil
  | @cons a b as bs related _ ih =>
      intro a' member
      rcases List.mem_cons.1 member with rfl | later
      · exact ⟨b, List.mem_cons_self .., related⟩
      · obtain ⟨b', here, related'⟩ := ih a' later
        exact ⟨b', List.mem_cons_of_mem _ here, related'⟩

theorem forall_of_forall₂ {α β : Type} {R : α → β → Prop} {P : α → Prop} {as : List α}
    {bs : List β} (each : List.Forall₂ R as bs) (maps : ∀ a b, R a b → P a) : ∀ a ∈ as, P a := by
  intro a member
  obtain ⟨b, -, related⟩ := exists_of_forall₂ each a member
  exact maps a b related

theorem exists_append_of_forall₂ {α β : Type} {R : α → β → Prop} {as as' : List α} {bs : List β}
    (each : List.Forall₂ R (as ++ as') bs) :
    ∃ cs cs', bs = cs ++ cs' ∧ List.Forall₂ R as cs ∧ List.Forall₂ R as' cs' := by
  induction as generalizing bs with
  | nil => exact ⟨[], bs, rfl, .nil, each⟩
  | cons a as ih =>
      obtain _ | ⟨related, each⟩ := each
      obtain ⟨cs, cs', rfl, first, second⟩ := ih each
      exact ⟨_ :: cs, cs', rfl, .cons related first, second⟩

theorem find?_of_forall₂ {α β : Type} {R : α → β → Prop} {p : α → Bool} {q : β → Bool}
    {as : List α} {bs : List β} (each : List.Forall₂ R as bs)
    (agree : ∀ a ∈ as, ∀ b, R a b → p a = q b) {a : α} (found : as.find? p = some a) :
    ∃ b, bs.find? q = some b ∧ R a b := by
  induction each with
  | nil => cases found
  | @cons a' b' as bs related _ ih =>
      obtain ⟨here, later⟩ := List.forall_mem_cons.1 agree
      have same := here b' related
      cases holds : p a' with
      | true =>
          rw [List.find?_cons_of_pos holds] at found
          obtain rfl := Option.some.inj found
          exact ⟨b', List.find?_cons_of_pos (same ▸ holds), related⟩
      | false =>
          rw [List.find?_cons_of_neg (by simp [holds])] at found
          rw [List.find?_cons_of_neg (by simp [← same, holds])]
          exact ih later found

namespace Format

def separator (first : Bool) : List Char :=
  if first then [] else [',']

def joined : Bool → List (List Char) → List Char
  | _, [] => []
  | first, s :: items => separator first ++ (s ++ joined false items)

theorem joined_concat (first : Bool) (items : List (List Char)) (last : List Char) :
    joined first (items ++ [last]) =
      joined first items ++ (separator (first && items.isEmpty) ++ last) := by
  induction items generalizing first with
  | nil => cases first <;> simp [joined]
  | cons s items ih => simp [joined, ih]

theorem joined_append_cons (first : Bool) (items : List (List Char)) (s t : List Char)
    (later : List (List Char)) : joined first (items ++ (s ++ t) :: later) =
      joined first (items ++ [s]) ++ (t ++ joined false later) := by
  induction items generalizing first with
  | nil => simp [joined]
  | cons s items ih => simp [joined, ih]

theorem flatten_intersperse (s : List Char) (items : List (List Char)) :
    (List.intersperse [','] (s :: items)).flatten = s ++ joined false items := by
  induction items generalizing s with
  | nil => simp [joined]
  | cons t items ih => simp [joined, ih, separator]

theorem bracketed_eq (opening closing : Char) (items : List (List Char)) :
    bracketed opening closing items = opening :: (joined true items ++ [closing]) := by
  cases items with
  | nil => rfl
  | cons s items =>
      rw [bracketed, flatten_intersperse]
      rfl

/-- The text `s` has the items between its brackets; blanks in front of them count only if there
are no items, as others belong to the first item. -/
def Enclosed (opening closing : Char) (items : List (List Char)) (s : List Char) : Prop :=
  ∃ b, Blank b ∧ s = opening :: (b ++ (joined true items ++ [closing]))

theorem enclosed_bracketed (opening closing : Char) (items : List (List Char)) :
    Enclosed opening closing items (bracketed opening closing items) :=
  ⟨[], blank_nil, bracketed_eq opening closing items⟩

theorem starts_enclosed {opening closing : Char} {items : List (List Char)}
    (visible : isBlank opening = false) (other : opening ≠ ']') {s : List Char}
    (enclosed : Enclosed opening closing items s) : Starts s := by
  obtain ⟨b, -, rfl⟩ := enclosed
  exact ⟨_, _, rfl, visible, other⟩

/-- The text `s` opens a bracket, has the items and stops within a further one, of which it has
`last`. -/
def Opened (opening : Char) (items : List (List Char)) (last s : List Char) : Prop :=
  ∃ b, Blank b ∧ s = opening :: (b ++ joined true (items ++ [last]))

theorem length_le_joined {items : List (List Char)} (solid : ∀ s ∈ items, s ≠ []) (first : Bool) :
    items.length ≤ (joined first items).length := by
  induction items generalizing first with
  | nil => exact Nat.zero_le _
  | cons s items ih =>
      obtain ⟨here, later⟩ := List.forall_mem_cons.1 solid
      have positive := List.length_pos_iff.2 here
      have rest := ih later false
      rw [joined, List.length_append, List.length_append, List.length_cons]
      omega

theorem length_le_joined_append {items : List (List Char)} (solid : ∀ s ∈ items, s ≠ [])
    (first : Bool) (t : List Char) : items.length ≤ (joined first items ++ t).length := by
  rw [List.length_append]
  exact Nat.le_add_right_of_le (length_le_joined solid first)

theorem ends_closing {closing : Char} (closes : closing = ']' ∨ closing = '}')
    (rest : List Char) : Ends (closing :: rest) := by
  intro c member
  obtain rfl := Option.some.inj member
  exact .inr (.inr closes)

theorem ends_comma (rest : List Char) : Ends (',' :: rest) := by
  intro c member
  obtain rfl := Option.some.inj member
  exact .inr (.inl rfl)

theorem ends_joined {rest : List Char} (ends : Ends rest) (items : List (List Char)) :
    Ends (joined false items ++ rest) := by
  cases items with
  | nil => exact ends
  | cons s items => exact ends_comma _

theorem Enclosed.exists_opened {opening closing : Char} (closes : closing = ']' ∨ closing = '}')
    {items later : List (List Char)} {s t u : List Char}
    (enclosed : Enclosed opening closing (items ++ (s ++ t) :: later) u) :
    ∃ front behind, Opened opening items s front ∧ u = front ++ (t ++ behind) ∧
      ∀ rest, Ends (behind ++ rest) := by
  obtain ⟨b, blank, rfl⟩ := enclosed
  refine ⟨_, joined false later ++ [closing], ⟨b, blank, rfl⟩, ?_, fun rest => ?_⟩
  · simp only [joined_append_cons, List.cons_append, List.append_assoc]
  · rw [List.append_assoc]
    exact ends_joined (ends_closing closes rest) later

theorem ends_separator {items : List (List Char)} (some : items ≠ []) (rest : List Char) :
    Ends (separator items.isEmpty ++ rest) := by
  obtain ⟨s, items, rfl⟩ := List.exists_cons_of_ne_nil some
  exact ends_comma rest

theorem readNext_blank {b : List Char} (blank : Blank b) (bracket : Char) (first : Bool)
    (s : List Char) : readNext bracket first (b ++ s) = readNext bracket first s := by
  rw [readNext, readNext, skipBlanks_append blank]

theorem readNext_close {bracket : Char} (solid : isBlank bracket = false) (first : Bool)
    (rest : List Char) : readNext bracket first (bracket :: rest) = .ok (.close rest) := by
  rw [readNext, skipBlanks_cons solid]
  exact if_pos rfl

theorem readNext_item {bracket c : Char} (comma : ',' ≠ bracket) {b : List Char} (blank : Blank b)
    (solid : isBlank c = false) (other : c ≠ bracket) (first : Bool) (s : List Char) :
    readNext bracket first (separator first ++ (b ++ c :: s)) = .ok (.element (c :: s)) := by
  have found : skipBlanks (b ++ c :: s) = c :: s := by
    rw [skipBlanks_append blank, skipBlanks_cons solid]
  have comma_solid : isBlank ',' = false := rfl
  cases first with
  | true => simp [separator, readNext, found, other]
  | false => simp [separator, readNext, found, skipBlanks_cons comma_solid, other, comma]

end Format

end BranchSim.Json
