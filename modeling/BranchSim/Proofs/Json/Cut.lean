import BranchSim.Proofs.Json.Positions

/-!
# Texts that are cut off

A text that is cut off before its end either is read as truncated, or runs out: it is read in full
and nothing is left, as the digits in front of a number are. What encloses it is then truncated.
-/

namespace BranchSim.Json

def Cut (p s : List Char) : Prop :=
  ∃ q, q ≠ [] ∧ s = p ++ q

theorem cut_of_proper {p s : List Char} (within : p <+: s) (proper : p ≠ s) : Cut p s := by
  obtain ⟨q, rfl⟩ := within
  refine ⟨q, ?_, rfl⟩
  rintro rfl
  exact proper (List.append_nil p).symm

theorem not_cut_nil (p : List Char) : ¬ Cut p [] := by
  rintro ⟨q, more, whole⟩
  exact more (List.append_eq_nil_iff.1 whole.symm).2

theorem Cut.eq_nil {p : List Char} {c : Char} (cut : Cut p [c]) : p = [] := by
  obtain ⟨q, more, whole⟩ := cut
  cases p with
  | nil => rfl
  | cons d p => exact absurd (List.append_eq_nil_iff.1 (List.cons.inj whole).2.symm).2 more

theorem Cut.append {p s t : List Char} (cut : Cut p (s ++ t)) :
    Cut p s ∨ ∃ q, p = s ++ q ∧ Cut q t := by
  obtain ⟨q, more, whole⟩ := cut
  rcases List.append_eq_append_iff.1 whole with ⟨q', rfl, rfl⟩ | ⟨q', rfl, rfl⟩
  · exact .inr ⟨q', rfl, q, more, rfl⟩
  · cases q' with
    | nil => exact .inr ⟨[], by simp, t, more, rfl⟩
    | cons c q' => exact .inl ⟨c :: q', List.cons_ne_nil _ _, rfl⟩

theorem Cut.cons {p s : List Char} {c : Char} (cut : Cut p (c :: s)) :
    p = [] ∨ ∃ q, p = c :: q ∧ Cut q s := by
  rcases Cut.append (s := [c]) cut with first | later
  · exact .inl first.eq_nil
  · exact .inr later

theorem Cut.exists_take {p s : List Char} (cut : Cut p s) : ∃ n < s.length, p = s.take n := by
  obtain ⟨q, more, rfl⟩ := cut
  have positive := List.length_pos_iff.2 more
  refine ⟨p.length, ?_, List.take_left.symm⟩
  rw [List.length_append]
  omega

namespace Format

/-- Of the first of the items, with what separates it from those before, `q` is a part at most. -/
def Part (first : Bool) (items : List (List Char)) (q : List Char) : Prop :=
  q = [] ∨ ∃ s later, items = s :: later ∧ Cut q (separator first ++ s)

theorem cut_joined {items : List (List Char)} {closing : Char} {first : Bool} {p : List Char}
    (cut : Cut p (joined first items ++ [closing])) :
    ∃ before after q, items = before ++ after ∧ p = joined first before ++ q ∧
      Part (first && before.isEmpty) after q := by
  induction items generalizing first p with
  | nil => exact ⟨[], [], p, rfl, rfl, .inl cut.eq_nil⟩
  | cons s items ih =>
      rw [joined, ← List.append_assoc, List.append_assoc] at cut
      rcases cut.append with here | ⟨q, rfl, beyond⟩
      · rw [← Bool.and_true first] at here
        exact ⟨[], s :: items, p, rfl, rfl, .inr ⟨s, items, rfl, here⟩⟩
      · obtain ⟨before, after, q, rfl, rfl, part⟩ := ih beyond
        refine ⟨s :: before, after, q, rfl, ?_, ?_⟩
        · simp only [joined, List.append_assoc]
        · rw [List.isEmpty_cons, Bool.and_false]
          exact part

theorem ends_part {before after : List (List Char)} {q : List Char} {first : Bool}
    (part : Part (first && before.isEmpty) after q) (some : before ≠ []) : Ends q := by
  rcases part with rfl | ⟨s, _, -, cut⟩
  · exact ends_nil
  · obtain ⟨t, before, rfl⟩ := List.exists_cons_of_ne_nil some
    rw [List.isEmpty_cons, Bool.and_false] at cut
    rcases cut.cons with rfl | ⟨q, rfl, -⟩
    · exact ends_nil
    · exact ends_comma q

def Truncates {α : Type} (f : Format α) (s : List Char) : Prop :=
  ∀ p, Cut p s → f.read p = .error .truncated

/-- Whatever is left of the text `s` after a cut is truncated or read in full. -/
def RunsOut {α : Type} (f : Format α) (s : List Char) : Prop :=
  ∀ p, Cut p s → f.read p = .error .truncated ∨ ∃ a, f.read p = .ok (a, [])

theorem Truncates.runsOut {α : Type} {f : Format α} {s : List Char} (truncates : f.Truncates s) :
    f.RunsOut s :=
  fun p cut => .inl (truncates p cut)

theorem truncates_boolean (b : Bool) : boolean.Truncates (boolean.write b) := by
  intro p cut
  obtain ⟨n, short, rfl⟩ := cut.exists_take
  cases b with
  | true => exact (by decide : ∀ n < 4, boolean.read ("true".toList.take n) = _) n short
  | false => exact (by decide : ∀ n < 5, boolean.read ("false".toList.take n) = _) n short

theorem le_ofDigitChars (ds : List Char) (n : Nat) : n ≤ Nat.ofDigitChars 10 ds n := by
  induction ds generalizing n with
  | nil => exact Nat.le_refl n
  | cons d ds ih =>
      rw [Nat.ofDigitChars_cons]
      exact Nat.le_trans (by omega) (ih _)

theorem Numeral.of_cut {p ds : List Char} (numeral : Numeral ds) (cut : Cut p ds) (some : p ≠ []) :
    Numeral p := by
  cases numeral with
  | zero => exact absurd cut.eq_nil some
  | positive lead digits =>
      obtain ⟨q, -, whole⟩ := cut
      cases p with
      | nil => exact absurd rfl some
      | cons c p =>
          obtain ⟨rfl, rfl⟩ := List.cons.inj whole
          exact .positive lead fun d member => digits d (List.mem_append_left q member)

theorem runsOut_natural {bound : Nat} (expected : String) {ds : List Char} (numeral : Numeral ds)
    (below : Nat.ofDigitChars 10 ds 0 < bound) (fits : bound ≤ UInt64.size) :
    (natural bound expected).RunsOut ds := by
  intro p cut
  by_cases empty : p = []
  · rw [empty]
    exact .inl rfl
  · have shorter := Numeral.of_cut numeral cut empty
    obtain ⟨q, -, rfl⟩ := cut
    rw [Nat.ofDigitChars_append] at below
    have below' := Nat.lt_of_le_of_lt (le_ofDigitChars q _) below
    have read := (accepts_natural expected shorter below' fits).read [] [] blank_nil ends_nil
    rw [List.nil_append, List.append_nil] at read
    exact .inr ⟨_, read⟩

theorem runsOut_decimal {bound n : Nat} (expected : String) (below : n < bound)
    (fits : bound ≤ UInt64.size) : (natural bound expected).RunsOut (Nat.toDigits 10 n) := by
  refine runsOut_natural expected (numeral_toDigits n) ?_ fits
  rw [Nat.ofDigitChars_ten_toDigits]
  exact below

theorem RunsOut.map {α β : Type} {f : Format α} {s : List Char} (runsOut : f.RunsOut s)
    (forth : α → β) (back : β → α) : (f.map forth back).RunsOut s := by
  intro p cut
  rcases runsOut p cut with truncated | ⟨a, read⟩
  · refine .inl ?_
    simp only [Format.map, truncated, bind, Except.bind]
  · refine .inr ⟨forth a, ?_⟩
    simp only [Format.map, read, bind, Except.bind]
    rfl

theorem readText_plain_truncated {s : List Char} (plain : Plain s) :
    readText s = .error .truncated := by
  have read : readString true .plain s = .error .truncated := by
    induction s with
    | nil => rfl
    | cons c s ih =>
        obtain ⟨⟨printable, -, quote, backslash⟩, later⟩ := List.forall_mem_cons.1 plain
        have step : stringStep true .plain c = .ok ([c], .plain) := by
          rw [stringStep, if_neg backslash, if_neg (Nat.not_lt.2 printable)]
        rw [readString]
        · simp only [step, ih later, bind, Except.bind]
        · exact fun _ => quote
  rw [readText, read]
  rfl

theorem cut_quoted {name : String} (plain : Plain name.toList) {p : List Char}
    (cut : Cut p (quoted name)) : p = [] ∨ ∃ s, p = '"' :: s ∧ readText s = .error .truncated := by
  rcases cut.cons with empty | ⟨s, rfl, within⟩
  · exact .inl empty
  · refine .inr ⟨s, rfl, readText_plain_truncated ?_⟩
    rcases within.append with ⟨q, -, whole⟩ | ⟨q, rfl, last⟩
    · rw [whole] at plain
      exact fun c member => plain c (List.mem_append_left q member)
    · rw [last.eq_nil, List.append_nil]
      exact plain

theorem truncates_variant {α : Type} {names : List (String × α)} (name : α → String)
    {key : String} (plain : Plain key.toList) : (variants names name).Truncates (quoted key) := by
  intro p cut
  rcases cut_quoted plain cut with rfl | ⟨s, rfl, truncated⟩
  · rfl
  · have read : readName names s = .error .truncated := by
      rw [readName, truncated]
      rfl
    exact read

theorem readNext_separator {bracket : Char} (comma : ',' ≠ bracket) (first : Bool) :
    readNext bracket first (separator first) = .error .truncated := by
  cases first with
  | true => rfl
  | false => simp [separator, readNext, skipBlanks, isBlank, comma]

theorem readElements_nil {α : Type} (item : Reader α) (bound : List Char) (first : Bool) :
    readElements item bound first [] = .error .truncated := by
  cases bound <;> rfl

theorem RunsOut.readElements {α : Type} {item : Format α} {s p : List Char}
    (runsOut : item.RunsOut s) (starts : Starts s) (bound : List Char) {first : Bool}
    (cut : Cut p (separator first ++ s)) :
    readElements item.read bound first p = .error .truncated := by
  cases bound with
  | nil => rfl
  | cons _ bound =>
      rcases cut.append with before | ⟨q, rfl, inside⟩
      · cases first with
        | true => exact absurd before (not_cut_nil p)
        | false => rw [before.eq_nil, readElements_nil]
      · rw [Format.readElements]
        obtain ⟨c, cs, rfl, solid, other⟩ := starts
        rcases inside.cons with rfl | ⟨q', rfl, -⟩
        · rw [List.append_nil, readNext_separator (by decide)]
          rfl
        · have next := readNext_item (by decide : ',' ≠ ']') blank_nil solid other first q'
          rw [List.nil_append] at next
          rw [next]
          rcases runsOut _ inside with truncated | ⟨a, read⟩
          · simp only [bind, Except.bind, truncated]
          · simp only [bind, Except.bind, read, readElements_nil]

section Records

variable {ρ : Type}

def Field.RunsOut (f : Field ρ) (s : List Char) : Prop :=
  ∀ r p, Cut p s → f.read r p = .error .truncated ∨ ∃ r', f.read r p = .ok (r', [])

theorem RunsOut.field {α : Type} {f : Format α} {s : List Char} (runsOut : f.RunsOut s)
    {key : String} {required : Bool} {get : ρ → α} {set : ρ → α → ρ} :
    (Field.of key required f get set).RunsOut s := by
  intro r p cut
  rcases runsOut p cut with truncated | ⟨a, read⟩
  · refine .inl ?_
    simp only [Field.of, truncated, bind, Except.bind]
  · refine .inr ⟨set r a, ?_⟩
    simp only [Field.of, read, bind, Except.bind]
    rfl

namespace RecordType

variable {t : RecordType ρ}

theorem readMembers_nil (bound : List Char) (first : Bool) (seen : List String) (r : ρ) :
    t.readMembers bound first seen r [] = .error .truncated := by
  cases bound <;> rfl

theorem readMembers_cut {f : Field ρ} {v p : List Char} (plain : Plain f.key.toList)
    (known : t.field? f.key.toList = some f) {seen : List String} (fresh : f.key ∉ seen)
    (runsOut : f.RunsOut v) (bound : List Char) {first : Bool} (r : ρ)
    (cut : Cut p (separator first ++ (quoted f.key ++ ':' :: v))) :
    t.readMembers bound first seen r p = .error .truncated := by
  cases bound with
  | nil => rfl
  | cons c bound =>
      rcases cut.append with before | ⟨q, rfl, inside⟩
      · cases first with
        | true => exact absurd before (not_cut_nil p)
        | false => rw [before.eq_nil, readMembers_nil]
      · rcases inside.append with key | ⟨q', rfl, value⟩
        · -- Nothing of the key is left, or its opening quote and some of its characters.
          rw [readMembers]
          rcases cut_quoted plain key with rfl | ⟨s, rfl, truncated⟩
          · rw [List.append_nil, readNext_separator (by decide)]
            rfl
          · have next := readNext_item (by decide : ',' ≠ '}') blank_nil
              (by decide : isBlank '"' = false) (by decide) first s
            rw [List.nil_append] at next
            rw [next]
            simp only [bind, Except.bind, readKey, truncated]
        · have named := named_quoted plain
          have read : t.readMembers (c :: bound) first seen r
              (separator first ++ (quoted f.key ++ q')) = _ :=
            readMembers_known blank_nil named known fresh first r q'
          rw [read]
          rcases value.cons with rfl | ⟨q'', rfl, short⟩
          · rfl
          · have colon : readColon (':' :: q'') = .ok q'' := readColon_blank blank_nil q''
            simp only [colon, bind, Except.bind]
            rcases runsOut r q'' short with truncated | ⟨r', read⟩
            · rw [truncated]
            · simp only [read, readMembers_nil]

end RecordType

end Records

end Format

end BranchSim.Json
