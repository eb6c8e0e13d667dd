/-!
# UTF-8

A text as the octets that encode it. An octet is written as the character of the same number, so
that octets and ASCII text are patterns of one kind. `decode?` accepts exactly the shortest
encodings of scalar values.
-/

namespace BranchSim.Utf8

def encodeChar (c : Char) : List Char :=
  let n := c.toNat
  let trail (shift : Nat) : Char := Char.ofNat (0x80 + (n >>> shift) % 64)
  if n < 0x80 then [c]
  else if n < 0x800 then [Char.ofNat (0xC0 + (n >>> 6)), trail 0]
  else if n < 0x10000 then [Char.ofNat (0xE0 + (n >>> 12)), trail 6, trail 0]
  else [Char.ofNat (0xF0 + (n >>> 18)), trail 12, trail 6, trail 0]

def encode (s : List Char) : List Char :=
  s.flatMap encodeChar

/-- What a leading octet announces: how many octets follow, the bits it holds itself, and the range
of the octet after it, which keeps out overlong forms, surrogates and numbers beyond the last. -/
def lead? (n : Nat) : Option (Nat × Nat × Nat × Nat) :=
  if n < 0x80 then some (0, n, 0, 0)
  else if n < 0xC2 then none
  else if n < 0xE0 then some (1, n - 0xC0, 0x80, 0xBF)
  else if n < 0xF0 then
    some (2, n - 0xE0, if n = 0xE0 then 0xA0 else 0x80, if n = 0xED then 0x9F else 0xBF)
  else if n < 0xF5 then
    some (3, n - 0xF0, if n = 0xF0 then 0x90 else 0x80, if n = 0xF4 then 0x8F else 0xBF)
  else none

/-- Decodes after a partly read character that lacks `missing` octets, the next of them within
`low` and `high`. -/
def decodeFrom? : (missing value low high : Nat) → List Char → Option (List Char)
  | 0, _, _, _, [] => some []
  | _ + 1, _, _, _, [] => none
  | 0, _, _, _, c :: rest =>
    match lead? c.toNat with
    | none => none
    | some (0, _) => (c :: ·) <$> decodeFrom? 0 0 0 0 rest
    | some (k + 1, value, low, high) => decodeFrom? (k + 1) value low high rest
  | k + 1, value, low, high, c :: rest =>
    if c.toNat < low ∨ high < c.toNat then none
    else
      let value := value * 64 + (c.toNat - 0x80)
      match k with
      | 0 => (Char.ofNat value :: ·) <$> decodeFrom? 0 0 0 0 rest
      | k + 1 => decodeFrom? (k + 1) value 0x80 0xBF rest

def decode? (octets : List Char) : Option (List Char) :=
  decodeFrom? 0 0 0 0 octets

end BranchSim.Utf8
