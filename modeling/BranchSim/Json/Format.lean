import BranchSim.Json.Skip

/-!
# Formats

A format reads and writes one kind of value. Written text is compact; what is read may have blanks,
members in any order, members that no record knows, and records as arrays of their fields.
-/

namespace BranchSim.Json

structure Format (α : Type) where
  read : Reader α
  write : α → List Char

/-! ## Mismatches -/

def found (s : List Char) : Except Fault Found :=
  match s with
  | [] => .error .truncated
  | '[' :: _ => .ok .array
  | '{' :: _ => .ok .object
  | '"' :: s => (.text ·.1) <$> readText s
  | 'n' :: s => (fun _ => .null) <$> readWord ['u', 'l', 'l'] s
  | 't' :: s => (fun _ => .boolean true) <$> readWord ['r', 'u', 'e'] s
  | 'f' :: s => (fun _ => .boolean false) <$> readWord ['a', 'l', 's', 'e'] s
  | c :: _ =>
    if c = '-' ∨ c.isDigit then do
      let (l, _) ← Literal.read .truncated s
      l.value
    else .error .malformed

def mismatch {α : Type} (expected : String) (s : List Char) : Except Fault α := do
  .error (.data (.wrongType (← found s) expected))

namespace Format

/-! ## Scalars -/

def boolean : Format Bool where
  read s :=
    match skipBlanks s with
    | 't' :: s => (true, ·) <$> readWord ['r', 'u', 'e'] s
    | 'f' :: s => (false, ·) <$> readWord ['a', 'l', 's', 'e'] s
    | s => mismatch "a boolean" s
  write b := (if b then "true" else "false").toList

def natural (bound : Nat) (expected : String) : Format Nat where
  read s :=
    let s := skipBlanks s
    match s with
    | c :: _ =>
      if c = '-' ∨ c.isDigit then do
        let (l, s) ← Literal.read .truncated s
        match ← l.value with
        | .integer n =>
          if 0 ≤ n ∧ n < bound then return (n.toNat, s)
          else .error (.data (.outOfRange n expected))
        | v => .error (.data (.wrongType v expected))
      else mismatch expected s
    | [] => .error .truncated
  write n := Nat.toDigits 10 n

def map {α β : Type} (f : Format α) (forth : α → β) (back : β → α) : Format β where
  read s := do
    let (a, s) ← f.read s
    return (forth a, s)
  write b := f.write (back b)

def word64 (expected : String) : Format UInt64 :=
  (natural UInt64.size expected).map UInt64.ofNat UInt64.toNat

def word32 (expected : String) : Format UInt32 :=
  (natural UInt32.size expected).map UInt32.ofNat UInt32.toNat

/-! ## Variants -/

def quoted (s : String) : List Char :=
  '"' :: s.toList ++ ['"']

def readNull (s : List Char) : Except Fault (List Char) :=
  match skipBlanks s with
  | 'n' :: s => readWord ['u', 'l', 'l'] s
  | s => mismatch "unit" s

section Variants

variable {α : Type} (names : List (String × α))

def readName : Reader α := fun s => do
  let (name, s) ← readText s
  match names.lookup (String.ofList name) with
  | some a => return (a, s)
  | none => .error (.data (.unknownVariant name (names.map (·.1))))

/-- A value with a fixed set of names: a string, or an object that gives the name a null. -/
def variants (name : α → String) : Format α where
  read s :=
    match skipBlanks s with
    | '"' :: s => readName names s
    | '{' :: s => do
      -- Unlike elsewhere, what is not a string is malformed here and not of a wrong type.
      let (a, s) ← match skipBlanks s with
        | '"' :: s => readName names s
        | [] => .error .truncated
        | _ => .error .malformed
      let s ← readColon s
      let s ← readNull s
      match skipBlanks s with
      | '}' :: s => return (a, s)
      | [] => .error .truncated
      | _ => .error .malformed
    | [] => .error .truncated
    | _ => .error .malformed
  write a := quoted (name a)

end Variants

/-! ## Lists -/

def bracketed (opening closing : Char) (items : List (List Char)) : List Char :=
  opening :: (List.intersperse [','] items).flatten ++ [closing]

/-- Reads the elements up to the closing bracket. Each takes at least one octet, so a text as long
as the rest bounds their number. -/
def readElements {α : Type} (item : Reader α) : List Char → Bool → Reader (List α)
  | [], _, _ => .error .truncated
  | _ :: bound, first, s => do
    match ← readNext ']' first s with
    | .close s => return ([], s)
    | .element s =>
      let (a, s) ← item s
      let (as, s) ← readElements item bound false s
      return (a :: as, s)

def list {α : Type} (item : Format α) : Format (List α) where
  read s :=
    match skipBlanks s with
    | '[' :: s => readElements item.read s true s
    | s => mismatch "a sequence" s
  write as := bracketed '[' ']' (as.map item.write)

/-! ## Records -/

structure Field (ρ : Type) where
  key : String
  required : Bool
  read : ρ → Reader ρ
  write : ρ → List Char

def Field.of {ρ α : Type} (key : String) (required : Bool) (f : Format α) (get : ρ → α)
    (set : ρ → α → ρ) : Field ρ where
  key := key
  required := required
  read r s := do
    let (a, s) ← f.read s
    return (set r a, s)
  write r := f.write (get r)

/-- The fields of a record in their order of declaration; those a document leaves out keep their
`initial` values. -/
structure RecordType (ρ : Type) where
  name : String
  initial : ρ
  fields : List (Field ρ)

namespace RecordType

variable {ρ : Type} (t : RecordType ρ)

def field? (key : List Char) : Option (Field ρ) :=
  t.fields.find? (·.key = String.ofList key)

def missing? (seen : List String) : Option (Field ρ) :=
  t.fields.find? fun f => f.required && !seen.contains f.key

def readKey : Reader (List Char)
  | '"' :: s => readText s
  | _ => .error .malformed

def readMembers : List Char → Bool → List String → ρ → Reader ρ
  | [], _, _, _, _ => .error .truncated
  | _ :: bound, first, seen, r, s => do
    match ← readNext '}' first s with
    | .close s =>
      match t.missing? seen with
      | some f => .error (.data (.missingField f.key))
      | none => return (r, s)
    | .element s =>
      let (key, s) ← readKey s
      match t.field? key with
      | none => do
        let s ← readColon s
        let s ← skipValue s
        readMembers bound false seen r s
      | some f =>
        if seen.contains f.key then .error (.data (.duplicateField f.key))
        else do
          let s ← readColon s
          let (r, s) ← f.read r s
          readMembers bound false (f.key :: seen) r s

def readEnd (r : ρ) : Reader ρ := fun s =>
  match skipBlanks s with
  | ']' :: s => .ok (r, s)
  | [] => .error .truncated
  | _ => .error .malformed

def readFields : List (Field ρ) → Nat → ρ → Reader ρ
  | [], _, r, s => readEnd r s
  | f :: fields, count, r, s => do
    match ← readNext ']' (count == 0) s with
    | .close s =>
      match (f :: fields).findIdx? (·.required) with
      | some i => .error (.data (.wrongLength (count + i) t.name t.fields.length))
      | none => return (r, s)
    | .element s =>
      let (r, s) ← f.read r s
      readFields fields (count + 1) r s

end RecordType

def record {ρ : Type} (t : RecordType ρ) : Format ρ where
  read s :=
    match skipBlanks s with
    | '[' :: s => t.readFields t.fields 0 t.initial s
    | '{' :: s => t.readMembers s true [] t.initial s
    | s => mismatch s!"struct {t.name}" s
  write r := bracketed '{' '}' (t.fields.map fun f => quoted f.key ++ ':' :: f.write r)

/-! ## Documents -/

variable {α : Type} (f : Format α)

def decode (document : List Char) : Except Fault α := do
  let (a, rest) ← f.read document
  if skipBlanks rest = [] then return a else .error .malformed

def encode (a : α) : List Char :=
  f.write a

end Format

end BranchSim.Json
