import BranchSim.Json.Skip
import BranchSim.Proofs.Text.Utf8

namespace BranchSim.Json

def Unescaped (c : Char) : Prop :=
  0x20 ≤ c.toNat ∧ c ≠ '"' ∧ c ≠ '\\'

def FourDigits (ds : List Char) (n : Nat) : Prop :=
  ds.length = 4 ∧ hex? ds = some n

inductive Spells : List Char → List Char → Prop
  | nil : Spells [] []
  | char {c : Char} {s t : List Char} (unescaped : Unescaped c) (later : Spells s t) :
    Spells (Utf8.encodeChar c ++ s) (c :: t)
  | escape {c d : Char} {s t : List Char} (known : simpleEscape? c = some d) (later : Spells s t) :
    Spells ('\\' :: c :: s) (d :: t)
  | numbered {ds s t : List Char} {n : Nat} (digits : FourDigits ds n)
    (single : isLeadingSurrogate n = false ∧ isTrailingSurrogate n = false) (later : Spells s t) :
    Spells ('\\' :: 'u' :: (ds ++ s)) (Char.ofNat n :: t)
  | pair {ds ds' s t : List Char} {n n' : Nat} (digits : FourDigits ds n)
    (leading : isLeadingSurrogate n) (digits' : FourDigits ds' n')
    (trailing : isTrailingSurrogate n') (later : Spells s t) :
    Spells ('\\' :: 'u' :: (ds ++ '\\' :: 'u' :: (ds' ++ s)))
      (Char.ofNat (0x10000 + (n - 0xD800) * 0x400 + (n' - 0xDC00)) :: t)

def Named (k name : List Char) : Prop :=
  ∃ s, Spells s name ∧ k = '"' :: (s ++ ['"'])

inductive Inside : List Char → Prop
  | nil : Inside []
  | octet {c : Char} {s : List Char} (unescaped : Unescaped c) (later : Inside s) : Inside (c :: s)
  | escape {c d : Char} {s : List Char} (known : simpleEscape? c = some d) (later : Inside s) :
    Inside ('\\' :: c :: s)
  | numbered {ds s : List Char} {n : Nat} (digits : FourDigits ds n) (later : Inside s) :
    Inside ('\\' :: 'u' :: (ds ++ s))

theorem readString_step {decoded : Bool} {state state' : StringState} {c : Char}
    {octets o s rest : List Char} (within : state = .plain → c ≠ '"')
    (step : stringStep decoded state c = .ok (octets, state'))
    (later : readString decoded state' s = .ok (o, rest)) :
    readString decoded state (c :: s) = .ok (octets ++ o, rest) := by
  rw [readString]
  · simp only [step, later, bind, Except.bind]
    rfl
  · intro plain quote
    exact within plain quote

theorem readString_silent {decoded : Bool} {state state' : StringState} {c : Char}
    {o s rest : List Char} (within : state = .plain → c ≠ '"')
    (step : stringStep decoded state c = .ok ([], state'))
    (later : readString decoded state' s = .ok (o, rest)) :
    readString decoded state (c :: s) = .ok (o, rest) :=
  readString_step within step later

theorem readString_unescaped {decoded : Bool} {c : Char} (unescaped : Unescaped c)
    {o s rest : List Char} (later : readString decoded .plain s = .ok (o, rest)) :
    readString decoded .plain (c :: s) = .ok (c :: o, rest) := by
  obtain ⟨printable, quote, backslash⟩ := unescaped
  have step : stringStep decoded .plain c = .ok ([c], .plain) := by
    rw [stringStep, if_neg backslash, if_neg (Nat.not_lt.2 printable)]
  exact readString_step (fun _ => quote) step later

theorem readString_backslash {decoded : Bool} {o s rest : List Char}
    (later : readString decoded .escape s = .ok (o, rest)) :
    readString decoded .plain ('\\' :: s) = .ok (o, rest) := by
  have other : '\\' ≠ '"' := by decide
  exact readString_silent (fun _ => other) rfl later

theorem readString_escape {decoded : Bool} {c d : Char} (known : simpleEscape? c = some d)
    {o s rest : List Char} (later : readString decoded .plain s = .ok (o, rest)) :
    readString decoded .plain ('\\' :: c :: s) = .ok (d :: o, rest) := by
  have other : c ≠ 'u' := by
    rintro rfl
    cases known
  have step : stringStep decoded .escape c = .ok ([d], .plain) := by
    rw [stringStep, if_neg other, known]
  exact readString_backslash (readString_step (by nofun) step later)

theorem readString_numbered {decoded : Bool} {o s rest : List Char}
    (later : readString decoded (.digits none []) s = .ok (o, rest)) :
    readString decoded .plain ('\\' :: 'u' :: s) = .ok (o, rest) := by
  have u : stringStep decoded .escape 'u' = .ok ([], .digits none []) := rfl
  exact readString_backslash (readString_silent (by nofun) u later)

theorem readString_digits {decoded : Bool} {leading : Option Nat} {ds : List Char} {n : Nat}
    (digits : FourDigits ds n) {octets o s rest : List Char} {state : StringState}
    (completed : (if decoded then numbered leading n else .ok ([], .plain)) = .ok (octets, state))
    (later : readString decoded state s = .ok (o, rest)) :
    readString decoded (.digits leading []) (ds ++ s) = .ok (octets ++ o, rest) := by
  obtain ⟨four, number⟩ := digits
  obtain ⟨a, b, c, d, rfl⟩ : ∃ a b c d, ds = [a, b, c, d] :=
    match ds, four with
    | [a, b, c, d], _ => ⟨a, b, c, d, rfl⟩
  have among (got : List Char) (e : Char) (few : got.length < 3) :
      stringStep decoded (.digits leading got) e = .ok ([], .digits leading (got ++ [e])) := by
    have short : (got ++ [e]).length < 4 := by
      rw [List.length_append]
      exact Nat.succ_lt_succ few
    rw [stringStep]
    exact if_pos short
  have last : stringStep decoded (.digits leading [a, b, c]) d = .ok (octets, state) := by
    rw [stringStep, ← completed]
    simp only [List.cons_append, List.nil_append, number]
    rfl
  have fourth := readString_step (by nofun) last later
  have third := readString_silent (by nofun) (among [a, b] c (by simp)) fourth
  have second := readString_silent (by nofun) (among [a] b (by simp)) third
  exact readString_silent (by nofun) (among [] a (by simp)) second

theorem readString_decoded {leading : Option Nat} {ds : List Char} {n : Nat}
    (digits : FourDigits ds n) {octets o s rest : List Char} {state : StringState}
    (completed : numbered leading n = .ok (octets, state))
    (later : readString true state s = .ok (o, rest)) :
    readString true (.digits leading []) (ds ++ s) = .ok (octets ++ o, rest) :=
  readString_digits digits ((if_pos rfl).trans completed) later

theorem readString_octets {decoded : Bool} {octets : List Char}
    (unescaped : ∀ c ∈ octets, Unescaped c) {o s rest : List Char}
    (later : readString decoded .plain s = .ok (o, rest)) :
    readString decoded .plain (octets ++ s) = .ok (octets ++ o, rest) := by
  induction octets with
  | nil => exact later
  | cons c octets ih =>
      obtain ⟨here, others⟩ := List.forall_mem_cons.1 unescaped
      exact readString_unescaped here (ih others)

theorem Unescaped.encodeChar {c : Char} (unescaped : Unescaped c) :
    ∀ o ∈ Utf8.encodeChar c, Unescaped o := by
  intro o member
  by_cases ascii : c.toNat < 0x80
  · rw [Utf8.encodeChar_of_ascii ascii, List.mem_singleton] at member
    rw [member]
    exact unescaped
  · have above := (Utf8.encodeChar_above ascii).2 o member
    refine ⟨by omega, ?_, ?_⟩
    · rintro rfl
      exact absurd above (by decide)
    · rintro rfl
      exact absurd above (by decide)

theorem ascii_simpleEscape {c d : Char} (known : simpleEscape? c = some d) : d.toNat < 0x80 := by
  unfold simpleEscape? at known
  split at known <;> cases known <;> decide

theorem numbered_single {n : Nat}
    (single : isLeadingSurrogate n = false ∧ isTrailingSurrogate n = false) :
    numbered none n = .ok (Utf8.encodeChar (Char.ofNat n), .plain) := by
  simp [numbered, single.1, single.2]

theorem numbered_leading {n : Nat} (leading : isLeadingSurrogate n) :
    numbered none n = .ok ([], .pair n) := by
  have other : isTrailingSurrogate n = false := by
    simp only [isLeadingSurrogate, isTrailingSurrogate, Bool.and_eq_true, decide_eq_true_eq,
      Bool.and_eq_false_iff, decide_eq_false_iff_not] at leading ⊢
    omega
  simp [numbered, leading, other]

theorem numbered_trailing {n n' : Nat} (trailing : isTrailingSurrogate n') :
    numbered (some n) n' = .ok (Utf8.encodeChar
      (Char.ofNat (0x10000 + (n - 0xD800) * 0x400 + (n' - 0xDC00))), .plain) := by
  simp [numbered, trailing]

theorem readString_of_spells {s t : List Char} (spells : Spells s t) (rest : List Char) :
    readString true .plain (s ++ '"' :: rest) = .ok (Utf8.encode t, rest) := by
  induction spells with
  | nil => rfl
  | @char c s t unescaped _ ih =>
      rw [Utf8.encode_cons, List.append_assoc]
      exact readString_octets unescaped.encodeChar ih
  | @escape c d s t known _ ih =>
      rw [Utf8.encode_cons, Utf8.encodeChar_of_ascii (ascii_simpleEscape known)]
      exact readString_escape known ih
  | @numbered ds s t n digits single _ ih =>
      have read := readString_decoded digits (numbered_single single) ih
      rw [Utf8.encode_cons, List.cons_append, List.cons_append, List.append_assoc]
      exact readString_numbered read
  | @pair ds ds' s t n n' digits leading digits' trailing _ ih =>
      have second := readString_decoded digits' (numbered_trailing (n := n) trailing) ih
      have escape : stringStep true (.pair n) '\\' = .ok ([], .pairEscape n) := rfl
      have u : stringStep true (.pairEscape n) 'u' = .ok ([], .digits (some n) []) := rfl
      have again := readString_silent (by nofun) escape (readString_silent (by nofun) u second)
      have first := readString_decoded digits (numbered_leading leading) again
      rw [List.nil_append] at first
      simp only [Utf8.encode_cons, List.cons_append, List.append_assoc]
      exact readString_numbered first

theorem readString_of_inside {s : List Char} (inside : Inside s) (rest : List Char) :
    ∃ o, readString false .plain (s ++ '"' :: rest) = .ok (o, rest) := by
  induction inside with
  | nil => exact ⟨[], rfl⟩
  | octet unescaped _ ih =>
      obtain ⟨o, later⟩ := ih
      exact ⟨_, readString_unescaped unescaped later⟩
  | escape known _ ih =>
      obtain ⟨o, later⟩ := ih
      exact ⟨_, readString_escape known later⟩
  | numbered digits _ ih =>
      obtain ⟨o, later⟩ := ih
      rw [List.cons_append, List.cons_append, List.append_assoc]
      exact ⟨_, readString_numbered (readString_digits digits (if_neg Bool.false_ne_true) later)⟩

theorem readText_of_spells {s t : List Char} (spells : Spells s t) (rest : List Char) :
    readText (s ++ '"' :: rest) = .ok (t, rest) := by
  unfold readText
  simp only [readString_of_spells spells, Utf8.decode?_encode, bind, Except.bind]
  rfl

theorem skipText_of_inside {s : List Char} (inside : Inside s) (rest : List Char) :
    skipText (s ++ '"' :: rest) = .ok rest := by
  obtain ⟨o, read⟩ := readString_of_inside inside rest
  rw [skipText, read]
  rfl

end BranchSim.Json
