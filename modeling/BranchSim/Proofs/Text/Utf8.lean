import BranchSim.Proofs.Text.Ascii

namespace BranchSim.Utf8

theorem valid_toNat (c : Char) : c.toNat < 0xD800 ∨ 0xDFFF < c.toNat ∧ c.toNat < 0x110000 :=
  c.valid

theorem toNat_octet {n : Nat} (octet : n < 0x100) : (Char.ofNat n).toNat = n := by
  have valid : n.isValidChar := .inl (by omega)
  rw [Char.ofNat, dif_pos valid]
  rfl

theorem encode_cons (c : Char) (s : List Char) : encode (c :: s) = encodeChar c ++ encode s :=
  List.flatMap_cons

theorem encode_append (s t : List Char) : encode (s ++ t) = encode s ++ encode t :=
  List.flatMap_append

theorem encodeChar_of_ascii {c : Char} (ascii : c.toNat < 0x80) : encodeChar c = [c] :=
  if_pos ascii

theorem encodeChar_above {c : Char} (above : ¬ c.toNat < 0x80) :
    encodeChar c ≠ [] ∧ ∀ o ∈ encodeChar c, 0x80 ≤ o.toNat := by
  have valid := valid_toNat c
  have octet (n : Nat) (low : 0x80 ≤ n) (high : n < 0x100) : 0x80 ≤ (Char.ofNat n).toNat := by
    rw [toNat_octet high]
    exact low
  have trail (n : Nat) : 0x80 ≤ (Char.ofNat (0x80 + n % 64)).toNat :=
    octet _ (by omega) (by omega)
  unfold encodeChar
  simp only [if_neg above]
  split
  · have lead := octet (0xC0 + (c.toNat >>> 6)) (by omega) (by omega)
    simp [lead, trail]
  · split
    · have lead := octet (0xE0 + (c.toNat >>> 12)) (by omega) (by omega)
      simp [lead, trail]
    · have lead := octet (0xF0 + (c.toNat >>> 18)) (by omega) (by omega)
      simp [lead, trail]

theorem decodeFrom?_last {value low high n : Nat} (inside : low ≤ n ∧ n ≤ high) (octet : n < 0x100)
    (rest : List Char) :
    decodeFrom? 1 value low high (Char.ofNat n :: rest) =
      (Char.ofNat (value * 64 + (n - 0x80)) :: ·) <$> decodeFrom? 0 0 0 0 rest := by
  have within : ¬ (n < low ∨ high < n) := by omega
  rw [decodeFrom?, toNat_octet octet, if_neg within]

theorem decodeFrom?_trail {k value low high n : Nat} (inside : low ≤ n ∧ n ≤ high)
    (octet : n < 0x100) (rest : List Char) :
    decodeFrom? (k + 2) value low high (Char.ofNat n :: rest) =
      decodeFrom? (k + 1) (value * 64 + (n - 0x80)) 0x80 0xBF rest := by
  have within : ¬ (n < low ∨ high < n) := by omega
  rw [decodeFrom?, toNat_octet octet, if_neg within]

theorem decodeFrom?_lead {k n value low high : Nat} (octet : n < 0x100)
    (lead : lead? n = some (k + 1, value, low, high)) (rest : List Char) :
    decodeFrom? 0 0 0 0 (Char.ofNat n :: rest) = decodeFrom? (k + 1) value low high rest := by
  rw [decodeFrom?, toNat_octet octet, lead]

theorem lead?_two {n : Nat} (low : 2 ≤ n) (high : n < 0x20) :
    lead? (0xC0 + n) = some (1, n, 0x80, 0xBF) := by
  rw [lead?, if_neg (by omega), if_neg (by omega), if_pos (by omega), Nat.add_sub_cancel_left]

theorem lead?_three {n : Nat} (high : n < 0x10) :
    lead? (0xE0 + n) =
      some (2, n, if n = 0 then 0xA0 else 0x80, if n = 0xD then 0x9F else 0xBF) := by
  have first : (0xE0 + n = 0xE0) = (n = 0) := propext (by omega)
  have surrogates : (0xE0 + n = 0xED) = (n = 0xD) := propext (by omega)
  rw [lead?, if_neg (by omega), if_neg (by omega), if_neg (by omega), if_pos (by omega),
    Nat.add_sub_cancel_left]
  simp only [first, surrogates]

theorem lead?_four {n : Nat} (high : n < 5) :
    lead? (0xF0 + n) =
      some (3, n, if n = 0 then 0x90 else 0x80, if n = 4 then 0x8F else 0xBF) := by
  have first : (0xF0 + n = 0xF0) = (n = 0) := propext (by omega)
  have last : (0xF0 + n = 0xF4) = (n = 4) := propext (by omega)
  rw [lead?, if_neg (by omega), if_neg (by omega), if_neg (by omega), if_neg (by omega),
    if_pos (by omega), Nat.add_sub_cancel_left]
  simp only [first, last]

theorem decodeFrom?_encodeChar (c : Char) (rest : List Char) :
    decodeFrom? 0 0 0 0 (encodeChar c ++ rest) = (c :: ·) <$> decodeFrom? 0 0 0 0 rest := by
  have valid := valid_toNat c
  have whole {n : Nat} (same : n = c.toNat) : Char.ofNat n = c := by
    rw [same, Char.ofNat_toNat]
  unfold encodeChar
  simp only [Nat.shiftRight_eq_div_pow]
  split
  · rename_i ascii
    have lead : lead? c.toNat = some (0, c.toNat, 0, 0) := if_pos ascii
    rw [List.singleton_append, decodeFrom?, lead]
  · split
    · rw [List.cons_append, decodeFrom?_lead (by omega) (lead?_two (by omega) (by omega)),
        List.singleton_append, decodeFrom?_last (by omega) (by omega), whole (by omega)]
    · split
      · -- The first trailing octet is bound further where the leading one has a special range.
        rw [List.cons_append, decodeFrom?_lead (by omega) (lead?_three (by omega)),
          List.cons_append, decodeFrom?_trail (by split <;> split <;> omega) (by omega),
          List.singleton_append, decodeFrom?_last (by omega) (by omega), whole (by omega)]
      · rw [List.cons_append, decodeFrom?_lead (by omega) (lead?_four (by omega)),
          List.cons_append, decodeFrom?_trail (by split <;> split <;> omega) (by omega),
          List.cons_append, decodeFrom?_trail (by omega) (by omega),
          List.singleton_append, decodeFrom?_last (by omega) (by omega), whole (by omega)]

theorem decode?_encode (s : List Char) : decode? (encode s) = some s := by
  unfold decode?
  induction s with
  | nil => rfl
  | cons c s ih =>
      rw [encode_cons, decodeFrom?_encodeChar, ih]
      rfl

end BranchSim.Utf8
