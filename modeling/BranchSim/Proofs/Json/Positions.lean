import BranchSim.Proofs.Json.Members

namespace BranchSim.Json

namespace Format

section Records

variable {ρ : Type}

abbrev Fills (texts : List (List Char)) (changes : List (Change ρ)) : Prop :=
  List.Forall₂ (Padded fun v m => m.field.Accepts v m.update) texts changes

namespace RecordType

variable {t : RecordType ρ} {changes : List (Change ρ)} {texts : List (List Char)}

theorem readEnd_blank {b : List Char} (blank : Blank b) (r : ρ) (s : List Char) :
    readEnd r (b ++ s) = readEnd r s := by
  rw [readEnd, readEnd, skipBlanks_append blank]

theorem readFields_blank {b : List Char} (blank : Blank b) (fields : List (Field ρ)) (count : Nat)
    (r : ρ) (s : List Char) :
    t.readFields fields count r (b ++ s) = t.readFields fields count r s := by
  cases fields with
  | nil => exact readEnd_blank blank r s
  | cons f fields => rw [readFields, readFields, readNext_blank blank]

theorem readFields_close {fields : List (Field ρ)} (optional : ∀ f ∈ fields, f.required = false)
    (count : Nat) (r : ρ) (rest : List Char) :
    t.readFields fields count r (']' :: rest) = .ok (r, rest) := by
  cases fields with
  | nil => rfl
  | cons f fields =>
      have none_left : (f :: fields).findIdx? (·.required) = none :=
        List.findIdx?_eq_none_iff.2 optional
      rw [readFields, readNext_close rfl]
      simp only [bind, Except.bind, none_left]
      rfl

theorem readFields_item {f : Field ρ} {s b : List Char} (starts : Starts s) (blank : Blank b)
    (fields : List (Field ρ)) (count : Nat) (r : ρ) :
    t.readFields (f :: fields) count r (separator (count == 0) ++ (b ++ s)) =
      f.read r s >>= fun p => t.readFields fields (count + 1) p.1 p.2 := by
  obtain ⟨c, cs, rfl, solid, inside⟩ := starts
  rw [readFields, readNext_item (by decide : ',' ≠ ']') blank solid inside (count == 0) cs]
  rfl

theorem readFields_joined (fills : Fills texts changes) (left : List (Field ρ)) (count : Nat)
    (r : ρ) {rest : List Char} (ends : texts ≠ [] → Ends rest) :
    t.readFields (changes.map (·.field) ++ left) count r (joined (count == 0) texts ++ rest) =
      t.readFields left (count + texts.length) (applied changes r) rest := by
  induction fills generalizing count r with
  | nil => rfl
  | @cons s m texts changes padded _ ih =>
      obtain ⟨b, v, b', blank, accepts, blank', rfl⟩ := padded
      have ends := ends (List.cons_ne_nil _ _)
      have value := accepts.read r [] _ blank_nil ((ends_joined ends texts).of_blank blank')
      have later := ih (count + 1) (m.update r) fun _ => ends
      have follows : (count + 1 == 0) = false := rfl
      rw [follows] at later
      simp only [joined, List.append_assoc, List.cons_append, List.nil_append, List.map_cons]
        at value ⊢
      rw [readFields_item (accepts.starts.append _) blank, value]
      simp only [bind, Except.bind, readFields_blank blank', later, List.length_cons,
        Nat.add_right_comm count 1, Nat.add_assoc]
      rfl

end RecordType

section Arrays

open RecordType

variable {t : RecordType ρ} {changes : List (Change ρ)} {left : List (Field ρ)}
  {texts : List (List Char)}

theorem read_array {b : List Char} (blank : Blank b) (s : List Char) :
    (record t).read (b ++ '[' :: s) = t.readFields t.fields 0 t.initial s := by
  simp only [record, skipBlanks_append blank, skipBlanks_cons (show isBlank '[' = false from rfl)]

theorem read_fields (fills : Fills texts changes) (all : t.fields = changes.map (·.field) ++ left)
    {b b' tail : List Char} (blank : Blank b) (blank' : Blank b') (ends : texts ≠ [] → Ends tail) :
    (record t).read (b ++ '[' :: (b' ++ (joined true texts ++ tail))) =
      t.readFields left texts.length (applied changes t.initial) tail := by
  have run := readFields_joined (t := t) fills left 0 t.initial ends
  have first : (0 == 0) = true := rfl
  rw [first, ← all, Nat.zero_add] at run
  rw [read_array blank, readFields_blank blank', run]

theorem delimits_array (fills : Fills texts changes)
    (all : t.fields = changes.map (·.field) ++ left) (optional : ∀ f ∈ left, f.required = false)
    {s : List Char} (enclosed : Enclosed '[' ']' texts s) :
    (record t).Delimits s (applied changes t.initial) := by
  refine ⟨starts_enclosed rfl (by decide) enclosed, fun b rest blank => ?_⟩
  obtain ⟨b', blank', rfl⟩ := enclosed
  have run := read_fields fills all blank blank' fun _ => ends_closing (.inl rfl) rest
  simp only [List.cons_append, List.append_assoc, List.nil_append]
  rw [run, readFields_close optional]

theorem refuses_overlong (fills : Fills texts changes) (all : t.fields = changes.map (·.field))
    {s : List Char} (unclosed : Enclosed '[' ',' texts s) : (record t).Refuses s .malformed := by
  refine ⟨starts_enclosed rfl (by decide) unclosed, fun b rest blank => ?_⟩
  obtain ⟨b', blank', rfl⟩ := unclosed
  have run := read_fields fills (all.trans (List.append_nil _).symm) blank blank'
    fun _ => ends_comma rest
  simp only [List.cons_append, List.append_assoc, List.nil_append]
  rw [run]
  rfl

theorem fails_element (fills : Fills texts changes) {f : Field ρ}
    (all : t.fields = changes.map (·.field) ++ f :: left) {b s v : List Char} (blank : Blank b)
    (opened : Opened '[' texts b s) {e : Fault} (fails : f.FailsOn v e) :
    (record t).FailsOn (s ++ v) e := by
  obtain ⟨d, blank_d, rfl⟩ := opened
  refine ⟨⟨_, _, rfl, rfl, by decide⟩, fun d' blank_d' => ?_⟩
  have run := read_fields fills all blank_d' blank_d fun some => ends_separator some (b ++ v)
  have first : texts.isEmpty = (texts.length == 0) := by
    cases texts <;> rfl
  have failed := fails.read (applied changes t.initial) [] blank_nil
  rw [List.nil_append] at failed
  simp only [List.cons_append, List.append_assoc, joined_concat, Bool.true_and] at run ⊢
  rw [run, first, readFields_item fails.starts blank, failed]
  rfl

theorem refuses_element (fills : Fills texts changes) {f : Field ρ}
    (all : t.fields = changes.map (·.field) ++ f :: left) {b s v : List Char} (blank : Blank b)
    (opened : Opened '[' texts b s) {e : Fault} (refuses : f.Refuses v e) :
    (record t).Refuses (s ++ v) e := by
  refine ⟨?_, fun d rest blank_d => ?_⟩
  · obtain ⟨d, -, rfl⟩ := opened
    exact ⟨_, _, rfl, rfl, by decide⟩
  · rw [List.append_assoc]
    exact (fails_element fills all blank opened (refuses.failsOn rest)).read d blank_d

theorem rejects_element (fills : Fills texts changes) {f : Field ρ}
    (all : t.fields = changes.map (·.field) ++ f :: left) {m v s : List Char}
    (padded : Padded Eq m v) (rejects : f.Rejects v) {later : List (List Char)}
    (enclosed : Enclosed '[' ']' (texts ++ m :: later) s) : (record t).Rejects s := by
  obtain ⟨b, v, b', blank, rfl, blank', rfl⟩ := padded
  intro rest _
  obtain ⟨front, behind, opened, rfl, ends⟩ := enclosed.exists_opened (.inl rfl)
  obtain ⟨e, fails⟩ := rejects _ ((ends rest).of_blank blank')
  refine ⟨e, ?_⟩
  simp only [List.append_assoc]
  exact fails_element fills all blank opened fails

end Arrays

end Records

end Format

end BranchSim.Json
