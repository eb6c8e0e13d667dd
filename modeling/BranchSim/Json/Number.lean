import BranchSim.Json.Reader

/-!
# JSON numbers

A number is scanned into its written parts, and the parts are then given a value: an integer where
it is written as one and fits a machine word, and otherwise a double.
-/

namespace BranchSim.Json

structure Literal where
  negative : Bool
  whole : List Char
  fraction : List Char
  exponent : Option Int
deriving DecidableEq, Repr

namespace Literal

/-- Reads one digit or more; `atEnd` is the fault of a text that ends before the first. -/
def digits (atEnd : Fault) : Reader (List Char)
  | [] => .error atEnd
  | c :: s =>
    if c.isDigit then .ok (c :: s.takeWhile Char.isDigit, s.dropWhile Char.isDigit)
    else .error .malformed

/-- A leading zero stands alone. -/
def readWhole (atEnd : Fault) : Reader (List Char)
  | '0' :: s =>
    match s with
    | c :: _ => if c.isDigit then .error .malformed else .ok (['0'], s)
    | [] => .ok (['0'], [])
  | s => digits atEnd s

def readFraction (atEnd : Fault) : Reader (List Char)
  | '.' :: s => digits atEnd s
  | s => .ok ([], s)

def readSign : List Char → Bool × List Char
  | '-' :: s => (true, s)
  | '+' :: s => (false, s)
  | s => (false, s)

def readExponent (atEnd : Fault) : Reader (Option Int)
  | c :: s =>
    if c = 'e' ∨ c = 'E' then do
      let (negative, s) := readSign s
      let (ds, s) ← digits atEnd s
      let n : Int := Nat.ofDigitChars 10 ds 0
      return (some (if negative then -n else n), s)
    else .ok (none, c :: s)
  | [] => .ok (none, [])

def readMinus : List Char → Bool × List Char
  | '-' :: s => (true, s)
  | s => (false, s)

def read (atEnd : Fault) : Reader Literal := fun s => do
  let (negative, s) := readMinus s
  let (whole, s) ← readWhole atEnd s
  let (fraction, s) ← readFraction atEnd s
  let (exponent, s) ← readExponent atEnd s
  return (⟨negative, whole, fraction, exponent⟩, s)

/-- Appends digits while the number fits a word; gives the digits that are left as well. -/
def absorb : Nat → List Char → Nat × List Char
  | n, [] => (n, [])
  | n, c :: cs =>
    let m := Nat.ofDigitChars 10 [c] n
    if m < UInt64.size then absorb m cs else (n, c :: cs)

def pow10 (n : Nat) : Float :=
  Float.ofScientific 1 false n

def shrink (x : Float) (n : Nat) : Float :=
  if n ≤ 308 then x / pow10 n
  else if x == 0 then x
  else shrink (x / pow10 308) (n - 308)
termination_by n

def scale? (x : Float) (e : Int) : Option Float :=
  if x == 0 then some x
  else if e < 0 then some (shrink x (-e).toNat)
  else if 308 < e then none
  else
    let y := x * pow10 e.toNat
    if y.isInf then none else some y

/-- The double of a number: its leading digits that fit a word, scaled by a power of ten. -/
def double? (l : Literal) : Option Float :=
  let (n, dropped) := absorb 0 l.whole
  let (n, lost) := absorb n l.fraction
  let exponent : Int :=
    l.exponent.getD 0 + dropped.length - (l.fraction.length - lost.length : Nat)
  (fun x => if l.negative then -x else x) <$> scale? (UInt64.ofNat n).toFloat exponent

def natural? (l : Literal) : Option Nat :=
  if l.fraction = [] ∧ l.exponent = none then some (Nat.ofDigitChars 10 l.whole 0) else none

/-- The integer that a number is written as, if it fits a word. A negative zero is no integer. -/
def integer? (l : Literal) : Option Int :=
  match l.natural? with
  | none => none
  | some n =>
    if l.negative then if 0 < n ∧ Int64.minValue.toInt ≤ -n then some (-n) else none
    else if n < UInt64.size then some n else none

/-- A number beyond the doubles has no value. -/
def value (l : Literal) : Except Fault Found :=
  match l.integer? with
  | some n => .ok (.integer n)
  | none =>
    match l.double? with
    | some x => .ok (.double x.toBits)
    | none => .error .malformed

end Literal

end BranchSim.Json
