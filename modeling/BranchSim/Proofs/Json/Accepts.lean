import BranchSim.Proofs.Json.Layout
import BranchSim.Proofs.Json.Plain
import BranchSim.Proofs.Json.Value

/-!
# Accepted and refused texts

`Format.Accepts f s a` says that the format `f` takes the text `s` for the value `a` wherever the
value ends there, and `Format.Rejects f s` that it fails there. `Format.Delimits f s a` and
`Format.Refuses f s e` say that it takes the text, or fails with `e`, whatever follows. All of them
lift through lists.
-/

namespace BranchSim.Json

namespace Format

structure Accepts {α : Type} (f : Format α) (s : List Char) (a : α) : Prop where
  starts : Starts s
  read : ∀ b rest, Blank b → Ends rest → f.read (b ++ (s ++ rest)) = .ok (a, rest)

structure Delimits {α : Type} (f : Format α) (s : List Char) (a : α) : Prop where
  starts : Starts s
  read : ∀ b rest, Blank b → f.read (b ++ (s ++ rest)) = .ok (a, rest)

structure Refuses {α : Type} (f : Format α) (s : List Char) (e : Fault) : Prop where
  starts : Starts s
  read : ∀ b rest, Blank b → f.read (b ++ (s ++ rest)) = .error e

structure FailsOn {α : Type} (f : Format α) (s : List Char) (e : Fault) : Prop where
  starts : Starts s
  read : ∀ b, Blank b → f.read (b ++ s) = .error e

def Rejects {α : Type} (f : Format α) (s : List Char) : Prop :=
  ∀ rest, Ends rest → ∃ e, f.FailsOn (s ++ rest) e

theorem Refuses.failsOn {α : Type} {f : Format α} {s : List Char} {e : Fault}
    (refuses : f.Refuses s e) (rest : List Char) : f.FailsOn (s ++ rest) e :=
  ⟨refuses.starts.append rest, fun b blank => refuses.read b rest blank⟩

theorem Delimits.accepts {α : Type} {f : Format α} {s : List Char} {a : α}
    (delimits : f.Delimits s a) : f.Accepts s a :=
  ⟨delimits.starts, fun b rest blank _ => delimits.read b rest blank⟩

/-! ## Documents -/

theorem Accepts.decode {α : Type} {f : Format α} {s document : List Char} {a : α}
    (accepts : f.Accepts s a) (padded : Padded Eq document s) : f.decode document = .ok a := by
  obtain ⟨b, s, b', blank, rfl, blank', rfl⟩ := padded
  have ends : Ends b' := by
    rw [← List.append_nil b']
    exact ends_nil.of_blank blank'
  unfold Format.decode
  simp only [accepts.read b b' blank ends, bind, Except.bind]
  rw [if_pos (skipBlanks_eq_nil_iff.2 blank')]
  rfl

theorem Delimits.decode_append {α : Type} {f : Format α} {s : List Char} {a : α}
    (delimits : f.Delimits s a) {rest : List Char} (more : ¬ Blank rest) :
    f.decode (s ++ rest) = .error .malformed := by
  have read := delimits.read [] rest blank_nil
  rw [List.nil_append] at read
  unfold Format.decode
  simp only [read, bind, Except.bind]
  rw [if_neg (skipBlanks_eq_nil_iff.not.2 more)]

theorem Refuses.decode {α : Type} {f : Format α} {s : List Char} {e : Fault}
    (refuses : f.Refuses s e) {b : List Char} (blank : Blank b) (rest : List Char) :
    f.decode (b ++ (s ++ rest)) = .error e := by
  unfold Format.decode
  simp only [refuses.read b rest blank, bind, Except.bind]

theorem Rejects.decode {α : Type} {f : Format α} {s document : List Char} (rejects : f.Rejects s)
    (padded : Padded Eq document s) : ∃ e, f.decode document = .error e := by
  obtain ⟨b, s, b', blank, rfl, blank', rfl⟩ := padded
  have ends : Ends b' := by
    rw [← List.append_nil b']
    exact ends_nil.of_blank blank'
  obtain ⟨e, fails⟩ := rejects b' ends
  refine ⟨e, ?_⟩
  unfold Format.decode
  simp only [fails.read b blank, bind, Except.bind]

/-! ## Scalars -/

theorem accepts_boolean (b : Bool) : boolean.Accepts (boolean.write b) b := by
  have skipped (b : List Char) (blank : Blank b) (s : List Char) :
      boolean.read (b ++ s) = boolean.read s := by
    simp only [boolean, skipBlanks_append blank]
  cases b with
  | true => exact ⟨⟨_, _, rfl, rfl, by decide⟩, fun b rest blank _ => skipped b blank _⟩
  | false => exact ⟨⟨_, _, rfl, rfl, by decide⟩, fun b rest blank _ => skipped b blank _⟩

theorem read_natural {bound : Nat} (expected : String) {b cs : List Char} {c : Char}
    (blank : Blank b) (lead : c = '-' ∨ c.isDigit) :
    (natural bound expected).read (b ++ c :: cs) = (do
      let (l, s) ← Literal.read .truncated (c :: cs)
      match ← l.value with
      | .integer n =>
        if 0 ≤ n ∧ n < bound then return (n.toNat, s)
        else .error (.data (.outOfRange n expected))
      | v => .error (.data (.wrongType v expected))) := by
  simp only [natural, skipBlanks_append blank, skipBlanks_cons (solid_of_number lead).1]
  exact if_pos lead

theorem accepts_natural {bound : Nat} (expected : String) {ds : List Char} (numeral : Numeral ds)
    (below : Nat.ofDigitChars 10 ds 0 < bound) (fits : bound ≤ UInt64.size) :
    (natural bound expected).Accepts ds (Nat.ofDigitChars 10 ds 0) := by
  obtain ⟨c, cs, rfl⟩ := List.exists_cons_of_ne_nil numeral.ne_nil
  have lead : c = '-' ∨ c.isDigit := .inr (numeral.digits c (List.mem_cons_self ..))
  obtain ⟨solid, inside, -⟩ := solid_of_number lead
  refine ⟨⟨c, cs, rfl, solid, inside⟩, fun b rest blank ends => ?_⟩
  have scanned := Literal.read_numeral .truncated numeral ends
  have valued := Literal.value_plain (Nat.lt_of_lt_of_le below fits)
  rw [List.cons_append] at scanned ⊢
  rw [read_natural expected blank lead, scanned]
  simp only [bind, Except.bind, valued]
  rw [if_pos ⟨Int.natCast_nonneg _, Int.ofNat_lt.2 below⟩]
  rfl

theorem rejects_natural {bound : Nat} (expected : String) {s : List Char} (loose : LooseNumber s)
    (outside : Numeral s → bound ≤ Nat.ofDigitChars 10 s 0) :
    (natural bound expected).Rejects s := by
  intro rest ends
  obtain ⟨c, cs, written, lead⟩ := loose.starts
  obtain ⟨solid, inside, -⟩ := solid_of_number lead
  have whole : s ++ rest = c :: (cs ++ rest) := written ▸ rfl
  -- Blanks in front do not change what is found, so the text can be read without any.
  suffices fails : ∃ e, (natural bound expected).read (s ++ rest) = .error e by
    obtain ⟨e, fails⟩ := fails
    refine ⟨e, ⟨c, cs ++ rest, whole, solid, inside⟩, fun b blank => ?_⟩
    rw [whole] at fails ⊢
    exact (read_natural expected blank lead).trans
      ((read_natural expected blank_nil lead).symm.trans fails)
  have run : (natural bound expected).read (s ++ rest) = _ :=
    whole ▸ read_natural expected blank_nil lead
  rw [run]
  rcases loose.number_or_superfluous with number | ⟨minus, d, t, signed, digit, rfl⟩
  · obtain ⟨l, read, plain⟩ := Literal.read_number .truncated number ends
    simp only [read, bind, Except.bind]
    cases value : l.value with
    | error e => exact ⟨e, rfl⟩
    | ok found =>
        cases found with
        | integer n =>
            refine ⟨_, if_neg ?_⟩
            rintro ⟨low, high⟩
            obtain ⟨same, rfl⟩ := Literal.eq_plain_of_value value low
            obtain ⟨numeral, digits⟩ := plain _ same
            rw [digits] at high
            exact absurd (outside numeral) (Nat.not_le.2 (Int.ofNat_lt.1 high))
        | _ => exact ⟨_, rfl⟩
  · rw [List.append_assoc, List.cons_append, List.cons_append,
      Literal.read_superfluous .truncated signed digit]
    exact ⟨_, rfl⟩

theorem Accepts.map {α β : Type} {f : Format α} {s : List Char} {a : α} (accepts : f.Accepts s a)
    (forth : α → β) (back : β → α) : (f.map forth back).Accepts s (forth a) := by
  refine ⟨accepts.starts, fun b rest blank ends => ?_⟩
  simp only [Format.map, accepts.read b rest blank ends, bind, Except.bind]
  rfl

theorem Rejects.map {α β : Type} {f : Format α} {s : List Char} (rejects : f.Rejects s)
    (forth : α → β) (back : β → α) : (f.map forth back).Rejects s := by
  intro rest ends
  obtain ⟨e, fails⟩ := rejects rest ends
  refine ⟨e, fails.starts, fun b blank => ?_⟩
  simp only [Format.map, fails.read b blank, bind, Except.bind]

theorem accepts_decimal {bound n : Nat} (expected : String) (below : n < bound)
    (fits : bound ≤ UInt64.size) : (natural bound expected).Accepts (Nat.toDigits 10 n) n := by
  have value : Nat.ofDigitChars 10 (Nat.toDigits 10 n) 0 = n := Nat.ofDigitChars_ten_toDigits
  have below' : Nat.ofDigitChars 10 (Nat.toDigits 10 n) 0 < bound := by
    rw [value]
    exact below
  have number := accepts_natural expected (numeral_toDigits n) below' fits
  rw [value] at number
  exact number

theorem accepts_word64 (expected : String) (w : UInt64) :
    (word64 expected).Accepts ((word64 expected).write w) w := by
  have number := accepts_decimal expected w.toNat_lt_size (Nat.le_refl UInt64.size)
  have word := number.map UInt64.ofNat UInt64.toNat
  rw [UInt64.ofNat_toNat] at word
  exact word

theorem accepts_word32 (expected : String) (w : UInt32) :
    (word32 expected).Accepts ((word32 expected).write w) w := by
  have number := accepts_decimal expected w.toNat_lt_size (by decide : UInt32.size ≤ UInt64.size)
  have word := number.map UInt32.ofNat UInt32.toNat
  rw [UInt32.ofNat_toNat] at word
  exact word

theorem rejects_word64 (expected : String) {s : List Char} (loose : LooseNumber s)
    (outside : Numeral s → UInt64.size ≤ Nat.ofDigitChars 10 s 0) :
    (word64 expected).Rejects s :=
  (rejects_natural expected loose outside).map UInt64.ofNat UInt64.toNat

theorem rejects_word32 (expected : String) {s : List Char} (loose : LooseNumber s)
    (outside : Numeral s → UInt32.size ≤ Nat.ofDigitChars 10 s 0) :
    (word32 expected).Rejects s :=
  (rejects_natural expected loose outside).map UInt32.ofNat UInt32.toNat

/-! ## Variants -/

section Variants

variable {α : Type} {names : List (String × α)} {key : String} {a : α}

theorem readName_append (known : names.lookup key = some a) {k : List Char}
    (named : Named k key.toList) : ∃ s, k = '"' :: s ∧
      ∀ rest, readName names (s ++ rest) = .ok (a, rest) := by
  obtain ⟨s, spells, rfl⟩ := named
  refine ⟨_, rfl, fun rest => ?_⟩
  rw [List.append_assoc, List.singleton_append, readName]
  simp only [readText_of_spells spells, bind, Except.bind, String.ofList_toList, known]
  rfl

theorem delimits_variant (name : α → String) (known : names.lookup key = some a) {k : List Char}
    (named : Named k key.toList) : (variants names name).Delimits k a := by
  obtain ⟨s, rfl, read⟩ := readName_append known named
  refine ⟨⟨_, _, rfl, rfl, by decide⟩, fun b rest blank => ?_⟩
  rw [List.cons_append]
  simp only [variants, skipBlanks_append blank, skipBlanks_cons (show isBlank '"' = false from rfl)]
  exact read rest

theorem readNull_append {b : List Char} (blank : Blank b) (rest : List Char) :
    readNull (b ++ ("null".toList ++ rest)) = .ok rest := by
  unfold readNull
  rw [skipBlanks_append blank]
  rfl

theorem delimits_variant_null (name : α → String) (known : names.lookup key = some a)
    {m s : List Char} (member : MemberText Named m (key.toList, "null".toList))
    (enclosed : Enclosed '{' '}' [m] s) : (variants names name).Delimits s a := by
  obtain ⟨_, _, ⟨d, k, d', blank_d, named, blank_d', rfl⟩, ⟨e, _, e', blank_e, rfl, blank_e', rfl⟩,
    rfl⟩ := member
  refine ⟨starts_enclosed rfl (by decide) enclosed, fun b rest blank => ?_⟩
  obtain ⟨b', blank', rfl⟩ := enclosed
  obtain ⟨s, rfl, read⟩ := readName_append known named
  have solid : isBlank '}' = false := rfl
  simp only [joined, separator, if_true, List.nil_append, List.append_nil, List.append_assoc,
    List.cons_append, variants, skipBlanks_append blank, skipBlanks_append blank',
    skipBlanks_append blank_d, skipBlanks_cons (show isBlank '{' = false from rfl),
    skipBlanks_cons (show isBlank '"' = false from rfl), bind, Except.bind, read,
    readColon_blank blank_d', readNull_append blank_e, skipBlanks_append blank_e',
    skipBlanks_cons solid]
  rfl

end Variants

/-! ## Lists -/

section Lists

variable {α : Type} {item : Format α} {texts : List (List Char)} {as : List α}

theorem readElements_blank (item : Reader α) {b : List Char} (blank : Blank b) (bound : List Char)
    (first : Bool) (s : List Char) :
    readElements item bound first (b ++ s) = readElements item bound first s := by
  cases bound with
  | nil => rfl
  | cons _ bound => rw [readElements, readElements, readNext_blank blank]

theorem readElements_close (item : Reader α) {bound : List Char} (room : 0 < bound.length)
    (first : Bool) (rest : List Char) :
    readElements item bound first (']' :: rest) = .ok ([], rest) := by
  obtain ⟨_, bound, rfl⟩ := List.exists_cons_of_length_pos room
  rw [readElements, readNext_close rfl]
  rfl

theorem FailsOn.readElements {s : List Char} {e : Fault} (fails : item.FailsOn s e)
    {bound : List Char} (room : 0 < bound.length) (first : Bool) {b : List Char} (blank : Blank b) :
    readElements item.read bound first (separator first ++ (b ++ s)) = .error e := by
  obtain ⟨_, bound, rfl⟩ := List.exists_cons_of_length_pos room
  have read := fails.read [] blank_nil
  obtain ⟨c, cs, rfl, solid, inside⟩ := fails.starts
  rw [Format.readElements, readNext_item (by decide) blank solid inside first cs]
  simp only [bind, Except.bind, List.nil_append] at read ⊢
  rw [read]

theorem readElements_joined (each : List.Forall₂ (Padded item.Accepts) texts as)
    {bound : List Char} (room : texts.length ≤ bound.length) (first : Bool) {rest : List Char}
    (ends : texts ≠ [] → Ends rest) :
    readElements item.read bound first (joined first texts ++ rest) =
      (fun r => (as ++ r.1, r.2)) <$>
        readElements item.read (bound.drop texts.length) (first && texts.isEmpty) rest := by
  induction each generalizing bound first with
  | nil =>
      rw [joined, List.nil_append, List.length_nil, List.drop_zero, List.isEmpty_nil, Bool.and_true]
      cases readElements item.read bound first rest <;> rfl
  | @cons s a texts as padded _ ih =>
      obtain ⟨b, s, b', blank, accepts, blank', rfl⟩ := padded
      obtain ⟨_, bound, rfl⟩ := List.exists_cons_of_length_pos (Nat.zero_lt_of_lt room)
      have ends := ends (List.cons_ne_nil _ _)
      have read := accepts.read [] (b' ++ (joined false texts ++ rest)) blank_nil
        ((ends_joined ends texts).of_blank blank')
      have later := ih (Nat.le_of_succ_le_succ room) false fun _ => ends
      obtain ⟨c, cs, rfl, solid, inside⟩ := accepts.starts
      have next := readNext_item (by decide) blank solid inside first
        (cs ++ (b' ++ (joined false texts ++ rest)))
      simp only [joined, List.append_assoc, List.cons_append] at read ⊢
      rw [readElements, next]
      simp only [bind, Except.bind]
      simp only [List.nil_append] at read
      rw [read]
      simp only [readElements_blank _ blank', later, List.length_cons, List.drop_succ_cons,
        List.isEmpty_cons, Bool.and_false, Bool.false_and]
      cases readElements item.read (bound.drop texts.length) false rest <;> rfl

theorem padded_ne_nil {s : List Char} {a : α} (padded : Padded item.Accepts s a) : s ≠ [] := by
  obtain ⟨b, s, b', -, accepts, -, rfl⟩ := padded
  simp [accepts.starts.ne_nil]

theorem length_lt_of_joined (solid : ∀ s ∈ texts, s ≠ []) (b : List Char) {t : List Char}
    (more : t ≠ []) : texts.length < (b ++ (joined true texts ++ t)).length := by
  have fits := length_le_joined solid true
  have positive := List.length_pos_iff.2 more
  rw [List.length_append, List.length_append]
  omega

theorem read_list {b : List Char} (blank : Blank b) (s : List Char) :
    (list item).read (b ++ '[' :: s) = readElements item.read s true s := by
  simp only [list, skipBlanks_append blank, skipBlanks_cons (show isBlank '[' = false from rfl)]

theorem delimits_list (each : List.Forall₂ (Padded item.Accepts) texts as) {s : List Char}
    (enclosed : Enclosed '[' ']' texts s) : (list item).Delimits s as := by
  refine ⟨starts_enclosed rfl (by decide) enclosed, fun b rest blank => ?_⟩
  obtain ⟨b', blank', rfl⟩ := enclosed
  have solid := forall_of_forall₂ each fun _ _ => padded_ne_nil
  have room := length_lt_of_joined solid b' (List.cons_ne_nil ']' rest)
  have more : 0 < ((b' ++ (joined true texts ++ ']' :: rest)).drop texts.length).length := by
    rw [List.length_drop]
    exact Nat.sub_pos_of_lt room
  have elements := readElements_joined each (Nat.le_of_lt room) true
    fun _ => ends_closing (.inl rfl) rest
  simp only [List.cons_append, List.append_assoc, List.nil_append] at elements ⊢
  rw [read_list blank, readElements_blank _ blank', elements, readElements_close _ more]
  simp

theorem fails_list (each : List.Forall₂ (Padded item.Accepts) texts as) {b s t : List Char}
    (blank : Blank b) (opened : Opened '[' texts b s) {e : Fault} (fails : item.FailsOn t e) :
    (list item).FailsOn (s ++ t) e := by
  obtain ⟨b', blank', rfl⟩ := opened
  refine ⟨⟨_, _, rfl, rfl, by decide⟩, fun b'' blank'' => ?_⟩
  have solid := forall_of_forall₂ each fun _ _ => padded_ne_nil
  have more : separator texts.isEmpty ++ (b ++ t) ≠ [] := by
    simp [fails.starts.ne_nil]
  have room := length_lt_of_joined solid b' more
  have left : 0 < ((b' ++ (joined true texts ++ (separator texts.isEmpty ++
      (b ++ t)))).drop texts.length).length := by
    rw [List.length_drop]
    exact Nat.sub_pos_of_lt room
  have elements := readElements_joined each (Nat.le_of_lt room) true
    fun some => ends_separator some (b ++ t)
  have failed := fails.readElements left texts.isEmpty blank
  simp only [List.cons_append, List.append_assoc, joined_concat, Bool.true_and] at elements ⊢
  rw [read_list blank'', readElements_blank _ blank', elements, failed]
  rfl

theorem refuses_list (each : List.Forall₂ (Padded item.Accepts) texts as) {b s t : List Char}
    (blank : Blank b) (opened : Opened '[' texts b s) {e : Fault} (refuses : item.Refuses t e) :
    (list item).Refuses (s ++ t) e := by
  refine ⟨?_, fun b' rest blank' => ?_⟩
  · obtain ⟨b', -, rfl⟩ := opened
    exact ⟨_, _, rfl, rfl, by decide⟩
  · rw [List.append_assoc]
    exact (fails_list each blank opened (refuses.failsOn rest)).read b' blank'

theorem rejects_list (each : List.Forall₂ (Padded item.Accepts) texts as)
    {later : List (List Char)} {m t s : List Char} (padded : Padded Eq m t)
    (rejects : item.Rejects t) (enclosed : Enclosed '[' ']' (texts ++ m :: later) s) :
    (list item).Rejects s := by
  intro rest _
  obtain ⟨b, t, b', blank, rfl, blank', rfl⟩ := padded
  obtain ⟨front, behind, opened, rfl, ends⟩ := enclosed.exists_opened (.inl rfl)
  obtain ⟨e, fails⟩ := rejects _ ((ends rest).of_blank blank')
  refine ⟨e, ?_⟩
  simp only [List.append_assoc]
  exact fails_list each blank opened fails

end Lists

end Format

end BranchSim.Json
