import BranchSim.Json.Number
import BranchSim.Json.Text

/-!
# Skipped values

The value of an unknown member is skipped, however deeply it is nested. Only its form is checked:
numbers have no range here, and one that is cut off is malformed.
-/

namespace BranchSim.Json

inductive Bracket
  | array
  | object
deriving DecidableEq, Repr

def Bracket.closing : Bracket → Char
  | array => ']'
  | object => '}'

/-- Skips a value, or only its opening bracket, which is then given. -/
def skipStart (s : List Char) : Except Fault (Option Bracket × List Char) :=
  match skipBlanks s with
  | [] => .error .truncated
  | '[' :: s => .ok (some .array, s)
  | '{' :: s => .ok (some .object, s)
  | '"' :: s => (none, ·) <$> skipText s
  | 'n' :: s => (none, ·) <$> readWord ['u', 'l', 'l'] s
  | 't' :: s => (none, ·) <$> readWord ['r', 'u', 'e'] s
  | 'f' :: s => (none, ·) <$> readWord ['a', 'l', 's', 'e'] s
  | c :: s =>
    if c = '-' ∨ c.isDigit then (none, ·.2) <$> Literal.read .malformed (c :: s)
    else .error .malformed

def skipKey (s : List Char) : Except Fault (List Char) :=
  match s with
  | '"' :: s => skipText s >>= readColon
  | _ => .error .malformed

def skipOpen : List Char → Bool → List Bracket → List Char → Except Fault (List Char)
  | _, _, [], s => .ok s
  | [], _, _ :: _, _ => .error .truncated
  | _ :: bound, first, b :: opened, s => do
    match ← readNext b.closing first s with
    | .close s => skipOpen bound false opened s
    | .element s =>
      let s ← if b = .object then skipKey s else .ok s
      match ← skipStart s with
      | (none, s) => skipOpen bound false (b :: opened) s
      | (some inner, s) => skipOpen bound true (inner :: b :: opened) s

def skipValue (s : List Char) : Except Fault (List Char) := do
  match ← skipStart s with
  | (none, s) => return s
  | (some b, s) => skipOpen s true [b] s

end BranchSim.Json
