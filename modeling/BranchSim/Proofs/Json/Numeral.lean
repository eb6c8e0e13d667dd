import BranchSim.Json.Number

namespace BranchSim.Json

/-- Only a blank, a comma or a closing bracket can follow a value, unless the text is over. -/
def Ends (rest : List Char) : Prop :=
  ∀ c ∈ rest.head?, isBlank c ∨ c = ',' ∨ c = ']' ∨ c = '}'

theorem ends_nil : Ends [] := by
  intro c member
  cases member

theorem Ends.other {rest : List Char} (ends : Ends rest) :
    ∀ c ∈ rest.head?, c.isDigit = false ∧ c ≠ '.' ∧ c ≠ 'e' ∧ c ≠ 'E' := by
  intro c member
  rcases ends c member with blank | rfl | rfl | rfl
  · simp only [isBlank, Bool.or_eq_true, decide_eq_true_eq] at blank
    rcases blank with ((rfl | rfl) | rfl) | rfl <;> decide
  · decide
  · decide
  · decide

theorem ne_of_isDigit {c d : Char} (digit : c.isDigit) (other : d.isDigit = false) : c ≠ d := by
  rintro rfl
  rw [digit] at other
  cases other

inductive Numeral : List Char → Prop
  | zero : Numeral ['0']
  | positive {c : Char} {ds : List Char} (lead : c ≠ '0') (digits : ∀ d ∈ c :: ds, d.isDigit) :
    Numeral (c :: ds)

theorem Numeral.digits {ds : List Char} (numeral : Numeral ds) : ∀ d ∈ ds, d.isDigit := by
  cases numeral with
  | zero =>
      intro d member
      obtain rfl := List.mem_singleton.1 member
      rfl
  | positive _ digits => exact digits

theorem digitChar_ne_zero : ∀ d < 10, 0 < d → Nat.digitChar d ≠ '0' := by
  decide

theorem toDigits_head_ne {n : Nat} (positive : 0 < n) :
    ∀ c ∈ (Nat.toDigits 10 n).head?, c ≠ '0' := by
  induction n using Nat.strongRecOn with
  | ind n ih =>
      intro c member
      rw [Nat.toDigits_eq_if (by decide)] at member
      split at member
      · rename_i small
        obtain rfl := Option.some.inj member
        exact digitChar_ne_zero n small positive
      · rename_i large
        -- The first digit of the number is that of its tenth.
        have lead := ih (n / 10) (by omega) (by omega)
        cases written : Nat.toDigits 10 (n / 10) with
        | nil => exact absurd written Nat.toDigits_ne_nil
        | cons d ds =>
            rw [written] at member lead
            exact lead c member

theorem numeral_toDigits (n : Nat) : Numeral (Nat.toDigits 10 n) := by
  cases n with
  | zero =>
      rw [Nat.toDigits_zero]
      exact .zero
  | succ n =>
      have digits : ∀ d ∈ Nat.toDigits 10 (n + 1), d.isDigit := fun d member =>
        Nat.isDigit_of_mem_toDigits (by decide) (Nat.le_refl 10) member
      have lead := toDigits_head_ne (Nat.succ_pos n)
      cases written : Nat.toDigits 10 (n + 1) with
      | nil => exact absurd written Nat.toDigits_ne_nil
      | cons c ds =>
          rw [written] at digits lead
          exact .positive (lead c rfl) digits

theorem digitChar_digit {c : Char} (digit : c.isDigit) :
    ∃ n < 10, Nat.digitChar n = c ∧ c.toNat - '0'.toNat = n := by
  obtain ⟨low, high⟩ := Char.isDigit_iff_toNat.1 digit
  have within : c.toNat - '0'.toNat < 10 := by
    have nine : '9'.toNat = '0'.toNat + 9 := rfl
    omega
  refine ⟨_, within, Char.toNat_inj.1 ?_, rfl⟩
  rw [Nat.toNat_digitChar_of_lt_ten within]
  exact Nat.add_sub_cancel' low

theorem toDigits_ofDigitChars {ds : List Char} (digits : ∀ d ∈ ds, d.isDigit) {n : Nat}
    (positive : 0 < n) :
    Nat.toDigits 10 (Nat.ofDigitChars 10 ds n) = Nat.toDigits 10 n ++ ds := by
  induction ds generalizing n with
  | nil => rw [Nat.ofDigitChars_nil, List.append_nil]
  | cons c ds ih =>
      obtain ⟨first, later⟩ := List.forall_mem_cons.1 digits
      obtain ⟨d, small, rfl, value⟩ := digitChar_digit first
      rw [Nat.ofDigitChars_cons, value, ih later (by omega),
        ← Nat.toDigits_append_toDigits (by decide) positive small, Nat.toDigits_of_lt_base small,
        List.append_assoc, List.singleton_append]

theorem Numeral.toDigits_value {ds : List Char} (numeral : Numeral ds) :
    Nat.toDigits 10 (Nat.ofDigitChars 10 ds 0) = ds := by
  cases numeral with
  | zero => rfl
  | @positive c ds lead digits =>
      obtain ⟨first, later⟩ := List.forall_mem_cons.1 digits
      obtain ⟨d, small, rfl, value⟩ := digitChar_digit first
      have positive : 0 < d := Nat.pos_of_ne_zero (mt Nat.digitChar_eq_zero.2 lead)
      rw [Nat.ofDigitChars_cons, value, Nat.mul_zero, Nat.zero_add,
        toDigits_ofDigitChars later positive, Nat.toDigits_of_lt_base small, List.singleton_append]

def Digits (ds : List Char) : Prop :=
  ds ≠ [] ∧ ∀ d ∈ ds, d.isDigit

theorem Numeral.ne_nil {ds : List Char} (numeral : Numeral ds) : ds ≠ [] := by
  cases numeral with
  | zero => exact List.cons_ne_nil _ _
  | positive => exact List.cons_ne_nil _ _

theorem Numeral.several {ds : List Char} (numeral : Numeral ds) : Digits ds :=
  ⟨numeral.ne_nil, numeral.digits⟩

instance (ds : List Char) : Decidable (Digits ds) :=
  @instDecidableAnd (ds ≠ []) _ _ (List.decidableBAll _ ds)

theorem numeral_iff {ds : List Char} :
    Numeral ds ↔ Digits ds ∧ (ds = ['0'] ∨ ds.head? ≠ some '0') := by
  constructor
  · intro numeral
    refine ⟨numeral.several, ?_⟩
    cases numeral with
    | zero => exact .inl rfl
    | positive lead => exact .inr (lead ∘ Option.some.inj)
  · rintro ⟨⟨some, all⟩, rfl | lead⟩
    · exact .zero
    · obtain ⟨c, ds, rfl⟩ := List.exists_cons_of_ne_nil some
      exact .positive (lead ∘ congrArg Option.some) all

instance (ds : List Char) : Decidable (Numeral ds) :=
  decidable_of_iff _ numeral_iff.symm

inductive Fraction : List Char → Prop
  | none : Fraction []
  | digits {ds : List Char} (digits : Digits ds) : Fraction ('.' :: ds)

inductive Exponent : List Char → Prop
  | none : Exponent []
  | digits {e : Char} {sign ds : List Char} (mark : e = 'e' ∨ e = 'E')
    (signed : sign ∈ [[], ['+'], ['-']]) (digits : Digits ds) : Exponent (e :: (sign ++ ds))

def Number (s : List Char) : Prop :=
  ∃ minus whole fraction exponent, minus ∈ [[], ['-']] ∧ Numeral whole ∧ Fraction fraction ∧
    Exponent exponent ∧ s = minus ++ (whole ++ (fraction ++ exponent))

/-- A number, or what is one but for superfluous zeros in front of its digits. -/
def LooseNumber (s : List Char) : Prop :=
  ∃ minus whole fraction exponent, minus ∈ [[], ['-']] ∧ Digits whole ∧ Fraction fraction ∧
    Exponent exponent ∧ s = minus ++ (whole ++ (fraction ++ exponent))

theorem numeral_or_superfluous {ds : List Char} (several : Digits ds) :
    Numeral ds ∨ ∃ d ds', d.isDigit ∧ ds = '0' :: d :: ds' := by
  obtain ⟨some, all⟩ := several
  obtain ⟨c, ds, rfl⟩ := List.exists_cons_of_ne_nil some
  by_cases zero : c = '0'
  · subst zero
    cases ds with
    | nil => exact .inl .zero
    | cons d ds => exact .inr ⟨d, ds, all d (by simp), rfl⟩
  · exact .inl (.positive zero all)

theorem LooseNumber.number_or_superfluous {s : List Char} (loose : LooseNumber s) :
    Number s ∨ ∃ minus d t, minus ∈ [[], ['-']] ∧ d.isDigit ∧ s = minus ++ '0' :: d :: t := by
  obtain ⟨minus, whole, fraction, exponent, signed, several, fractional, exponential, rfl⟩ := loose
  rcases numeral_or_superfluous several with numeral | ⟨d, ds, digit, rfl⟩
  · exact .inl ⟨minus, whole, fraction, exponent, signed, numeral, fractional, exponential, rfl⟩
  · exact .inr ⟨minus, d, _, signed, digit, rfl⟩

theorem LooseNumber.starts {s : List Char} (loose : LooseNumber s) :
    ∃ c cs, s = c :: cs ∧ (c = '-' ∨ c.isDigit) := by
  obtain ⟨minus, whole, fraction, exponent, signed, ⟨some, all⟩, -, -, rfl⟩ := loose
  simp only [List.mem_cons, List.not_mem_nil, or_false] at signed
  rcases signed with rfl | rfl
  · obtain ⟨c, cs, rfl⟩ := List.exists_cons_of_ne_nil some
    exact ⟨c, _, rfl, .inr (all c (List.mem_cons_self ..))⟩
  · exact ⟨'-', _, rfl, .inl rfl⟩

theorem Number.loose {s : List Char} (number : Number s) : LooseNumber s := by
  obtain ⟨minus, whole, fraction, exponent, signed, numeral, fractional, exponential, rfl⟩ := number
  exact ⟨minus, whole, fraction, exponent, signed, numeral.several, fractional, exponential, rfl⟩

def NoDigit (rest : List Char) : Prop :=
  ∀ c ∈ rest.head?, c.isDigit = false

theorem noDigit_cons {c : Char} (other : c.isDigit = false) (rest : List Char) :
    NoDigit (c :: rest) := by
  intro d member
  obtain rfl := Option.some.inj member
  exact other

theorem Ends.noDigit {rest : List Char} (ends : Ends rest) : NoDigit rest :=
  fun c member => (ends.other c member).1

namespace Literal

theorem takeWhile_digits {ds rest : List Char} (digits : ∀ d ∈ ds, d.isDigit)
    (stops : NoDigit rest) : (ds ++ rest).takeWhile Char.isDigit = ds := by
  rw [List.takeWhile_append_of_pos digits]
  cases rest with
  | nil => simp
  | cons c rest => simp [stops c rfl]

theorem dropWhile_digits {ds rest : List Char} (digits : ∀ d ∈ ds, d.isDigit)
    (stops : NoDigit rest) : (ds ++ rest).dropWhile Char.isDigit = rest := by
  rw [List.dropWhile_append_of_pos digits]
  cases rest with
  | nil => rfl
  | cons c rest => simp [stops c rfl]

theorem digits_append (atEnd : Fault) {ds rest : List Char} (several : Digits ds)
    (stops : NoDigit rest) : digits atEnd (ds ++ rest) = .ok (ds, rest) := by
  obtain ⟨some, all⟩ := several
  cases ds with
  | nil => exact absurd rfl some
  | cons c ds =>
      obtain ⟨first, later⟩ := List.forall_mem_cons.1 all
      rw [List.cons_append, digits, if_pos first, takeWhile_digits later stops,
        dropWhile_digits later stops]

theorem readWhole_numeral (atEnd : Fault) {ds rest : List Char} (numeral : Numeral ds)
    (stops : NoDigit rest) : readWhole atEnd (ds ++ rest) = .ok (ds, rest) := by
  cases numeral with
  | zero =>
      cases rest with
      | nil => rfl
      | cons c rest =>
          have other := stops c rfl
          simp [readWhole, other]
  | @positive c ds lead all =>
      have whole : readWhole atEnd (c :: ds ++ rest) = digits atEnd (c :: ds ++ rest) := by
        unfold readWhole
        split
        · rename_i here
          exact absurd (List.cons.inj here).1 lead
        · rfl
      rw [whole, digits_append atEnd ⟨List.cons_ne_nil _ _, all⟩ stops]

theorem readFraction_none (atEnd : Fault) {rest : List Char} (other : ∀ c ∈ rest.head?, c ≠ '.') :
    readFraction atEnd rest = .ok ([], rest) := by
  unfold readFraction
  split
  · exact absurd rfl (other '.' rfl)
  · rfl

theorem readExponent_none (atEnd : Fault) {rest : List Char} (ends : Ends rest) :
    readExponent atEnd rest = .ok (none, rest) := by
  cases rest with
  | nil => rfl
  | cons c rest =>
      have other : ¬ (c = 'e' ∨ c = 'E') := not_or.2 (ends.other c rfl).2.2
      rw [readExponent, if_neg other]

theorem readMinus_of_isDigit {c : Char} (digit : c.isDigit) (s : List Char) :
    readMinus (c :: s) = (false, c :: s) := by
  unfold readMinus
  split
  · rename_i here
    exact absurd (List.cons.inj here).1 (ne_of_isDigit digit rfl)
  · rfl

def plain (ds : List Char) : Literal :=
  ⟨false, ds, [], none⟩

theorem read_numeral (atEnd : Fault) {ds rest : List Char} (numeral : Numeral ds)
    (ends : Ends rest) : Literal.read atEnd (ds ++ rest) = .ok (plain ds, rest) := by
  have minus : readMinus (ds ++ rest) = (false, ds ++ rest) := by
    cases numeral with
    | zero => exact readMinus_of_isDigit rfl rest
    | positive _ digits => exact readMinus_of_isDigit (digits _ (List.mem_cons_self ..)) _
  have point : ∀ c ∈ rest.head?, c ≠ '.' := fun c member => (ends.other c member).2.1
  unfold Literal.read
  rw [minus]
  simp only [readWhole_numeral atEnd numeral ends.noDigit, readFraction_none atEnd point,
    readExponent_none atEnd ends, bind, Except.bind]
  rfl

theorem readFraction_append (atEnd : Fault) {fraction rest : List Char}
    (written : Fraction fraction) (stops : NoDigit rest) (point : ∀ c ∈ rest.head?, c ≠ '.') :
    ∃ ds, readFraction atEnd (fraction ++ rest) = .ok (ds, rest) ∧ (ds = [] → fraction = []) := by
  cases written with
  | none => exact ⟨[], readFraction_none atEnd point, fun _ => rfl⟩
  | digits several =>
      exact ⟨_, digits_append atEnd several stops, fun none => absurd none several.1⟩

theorem readSign_of_isDigit {c : Char} (digit : c.isDigit) (s : List Char) :
    readSign (c :: s) = (false, c :: s) := by
  unfold readSign
  split
  · rename_i here
    exact absurd (List.cons.inj here).1 (ne_of_isDigit digit rfl)
  · rename_i here
    exact absurd (List.cons.inj here).1 (ne_of_isDigit digit rfl)
  · rfl

theorem readSign_append {sign ds : List Char} (signed : sign ∈ [[], ['+'], ['-']])
    (several : Digits ds) (rest : List Char) :
    ∃ negative, readSign (sign ++ (ds ++ rest)) = (negative, ds ++ rest) := by
  simp only [List.mem_cons, List.not_mem_nil, or_false] at signed
  rcases signed with rfl | rfl | rfl
  · obtain ⟨some, all⟩ := several
    obtain ⟨c, cs, rfl⟩ := List.exists_cons_of_ne_nil some
    exact ⟨false, readSign_of_isDigit (all c (List.mem_cons_self ..)) _⟩
  · exact ⟨false, rfl⟩
  · exact ⟨true, rfl⟩

theorem readExponent_append (atEnd : Fault) {exponent rest : List Char}
    (written : Exponent exponent) (ends : Ends rest) :
    ∃ e, readExponent atEnd (exponent ++ rest) = .ok (e, rest) ∧ (e = none → exponent = []) := by
  cases written with
  | none => exact ⟨none, readExponent_none atEnd ends, fun _ => rfl⟩
  | @digits e sign ds mark signed several =>
      obtain ⟨negative, sign_read⟩ := readSign_append signed several rest
      have read := digits_append atEnd several ends.noDigit
      rw [List.cons_append, List.append_assoc, readExponent, if_pos mark]
      simp only [sign_read, read, bind, Except.bind]
      exact ⟨_, rfl, fun absent => nomatch absent⟩

theorem readMinus_append {minus whole : List Char} (signed : minus ∈ [[], ['-']])
    (several : Digits whole) (rest : List Char) :
    ∃ negative, readMinus (minus ++ (whole ++ rest)) = (negative, whole ++ rest) ∧
      (negative = false → minus = []) := by
  simp only [List.mem_cons, List.not_mem_nil, or_false] at signed
  rcases signed with rfl | rfl
  · obtain ⟨some, all⟩ := several
    obtain ⟨c, cs, rfl⟩ := List.exists_cons_of_ne_nil some
    exact ⟨false, readMinus_of_isDigit (all c (List.mem_cons_self ..)) _, fun _ => rfl⟩
  · exact ⟨true, rfl, fun positive => nomatch positive⟩

theorem other_of_exponent {exponent rest : List Char} (written : Exponent exponent)
    (ends : Ends rest) : ∀ c ∈ (exponent ++ rest).head?, c.isDigit = false ∧ c ≠ '.' := by
  cases written with
  | none => exact fun c member => ⟨(ends.other c member).1, (ends.other c member).2.1⟩
  | digits mark =>
      intro c member
      obtain rfl := Option.some.inj member
      rcases mark with rfl | rfl <;> decide

theorem noDigit_of_fraction {fraction rest : List Char} (written : Fraction fraction)
    (stops : NoDigit rest) : NoDigit (fraction ++ rest) := by
  cases written with
  | none => exact stops
  | digits => exact noDigit_cons rfl _

theorem read_number (atEnd : Fault) {s rest : List Char} (number : Number s) (ends : Ends rest) :
    ∃ l, Literal.read atEnd (s ++ rest) = .ok (l, rest) ∧
      ∀ ds, l = plain ds → Numeral s ∧ ds = s := by
  obtain ⟨minus, whole, fraction, exponent, signed, numeral, fractional, exponential, rfl⟩ := number
  have other := other_of_exponent exponential ends
  have stops : NoDigit (exponent ++ rest) := fun c member => (other c member).1
  have point : ∀ c ∈ (exponent ++ rest).head?, c ≠ '.' := fun c member => (other c member).2
  obtain ⟨negative, minus_read, positive⟩ :=
    readMinus_append signed numeral.several (fraction ++ (exponent ++ rest))
  have whole_read := readWhole_numeral atEnd numeral (noDigit_of_fraction fractional stops)
  obtain ⟨ds, fraction_read, integral⟩ := readFraction_append atEnd fractional stops point
  obtain ⟨e, exponent_read, unscaled⟩ := readExponent_append atEnd exponential ends
  simp only [List.append_assoc]
  unfold Literal.read
  rw [minus_read]
  simp only [whole_read, fraction_read, exponent_read, bind, Except.bind]
  refine ⟨_, rfl, fun ds' same => ?_⟩
  rw [plain, Literal.mk.injEq] at same
  obtain ⟨negative, rfl, fraction, exponent⟩ := same
  rw [positive negative, integral fraction, unscaled exponent, List.nil_append, List.append_nil,
    List.append_nil]
  exact ⟨numeral, rfl⟩

theorem read_superfluous (atEnd : Fault) {minus t : List Char} {d : Char}
    (signed : minus ∈ [[], ['-']]) (digit : d.isDigit) :
    Literal.read atEnd (minus ++ '0' :: d :: t) = .error .malformed := by
  have whole : readWhole atEnd ('0' :: d :: t) = .error .malformed := if_pos digit
  simp only [List.mem_cons, List.not_mem_nil, or_false] at signed
  rcases signed with rfl | rfl
  · unfold Literal.read
    rw [List.nil_append, readMinus_of_isDigit rfl]
    simp only [whole, bind, Except.bind]
  · unfold Literal.read readMinus
    simp only [List.cons_append, List.nil_append, whole, bind, Except.bind]

theorem value_plain {ds : List Char} (fits : Nat.ofDigitChars 10 ds 0 < UInt64.size) :
    (plain ds).value = .ok (.integer (Nat.ofDigitChars 10 ds 0)) := by
  have natural : (plain ds).natural? = some (Nat.ofDigitChars 10 ds 0) := if_pos ⟨rfl, rfl⟩
  have integer : (plain ds).integer? = some (Nat.ofDigitChars 10 ds 0 : Int) := by
    unfold integer?
    rw [natural]
    exact if_pos fits
  rw [value, integer]

theorem eq_plain_of_natural? {l : Literal} {n : Nat} (natural : l.natural? = some n)
    (positive : l.negative = false) : l = plain l.whole ∧ n = Nat.ofDigitChars 10 l.whole 0 := by
  unfold natural? at natural
  split at natural
  · rename_i whole
    obtain ⟨negative, ds, fraction, exponent⟩ := l
    obtain ⟨rfl, rfl⟩ := whole
    obtain rfl := positive
    exact ⟨rfl, (Option.some.inj natural).symm⟩
  · cases natural

theorem eq_plain_of_value {l : Literal} {n : Int} (value : l.value = .ok (.integer n))
    (natural : 0 ≤ n) : l = plain l.whole ∧ n = Nat.ofDigitChars 10 l.whole 0 := by
  have integer : l.integer? = some n := by
    unfold Literal.value at value
    split at value
    · rename_i m integer
      obtain rfl := Found.integer.inj (Except.ok.inj value)
      exact integer
    · split at value <;> cases value
  unfold integer? at integer
  split at integer
  · cases integer
  · rename_i m read
    split at integer
    · split at integer
      · rename_i within
        obtain rfl := Option.some.inj integer
        omega
      · cases integer
    · rename_i positive
      split at integer
      · obtain rfl := Option.some.inj integer
        obtain ⟨same, rfl⟩ := eq_plain_of_natural? read ((Bool.not_eq_true _).mp positive)
        exact ⟨same, rfl⟩
      · cases integer

end Literal

end BranchSim.Json
