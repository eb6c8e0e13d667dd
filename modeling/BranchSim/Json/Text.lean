import BranchSim.Json.Reader
import BranchSim.Text.Utf8

namespace BranchSim.Json

inductive StringState
  | plain
  | escape
  | digits (leading : Option Nat) (got : List Char)
  | pair (leading : Nat)
  | pairEscape (leading : Nat)

def hexDigit? (c : Char) : Option Nat :=
  if c.isDigit then some (c.toNat - '0'.toNat)
  else if 'a' ≤ c ∧ c ≤ 'f' then some (c.toNat - 'a'.toNat + 10)
  else if 'A' ≤ c ∧ c ≤ 'F' then some (c.toNat - 'A'.toNat + 10)
  else none

def hex? (cs : List Char) : Option Nat :=
  cs.foldlM (fun n c => (16 * n + ·) <$> hexDigit? c) 0

def simpleEscape? (c : Char) : Option Char :=
  match c with
  | '"' | '\\' | '/' => some c
  | 'b' => some '\x08'
  | 'f' => some '\x0c'
  | 'n' => some '\n'
  | 'r' => some '\r'
  | 't' => some '\t'
  | _ => none

def isLeadingSurrogate (n : Nat) : Bool := 0xD800 ≤ n && n ≤ 0xDBFF

def isTrailingSurrogate (n : Nat) : Bool := 0xDC00 ≤ n && n ≤ 0xDFFF

/-- The octets of a completed numbered escape and the state after it. Surrogates come in pairs, a
leading one first. -/
def numbered (leading : Option Nat) (n : Nat) : Except Fault (List Char × StringState) :=
  match leading with
  | none =>
    if isTrailingSurrogate n then .error .malformed
    else if isLeadingSurrogate n then .ok ([], .pair n)
    else .ok (Utf8.encodeChar (Char.ofNat n), .plain)
  | some high =>
    if isTrailingSurrogate n then
      let c := Char.ofNat (0x10000 + (high - 0xD800) * 0x400 + (n - 0xDC00))
      .ok (Utf8.encodeChar c, .plain)
    else .error .malformed

/-- One octet inside a string, but for the closing quote: the octets it adds and the next state.
Unless `decoded`, surrogates need not be paired. -/
def stringStep (decoded : Bool) (state : StringState) (c : Char) :
    Except Fault (List Char × StringState) :=
  match state with
  | .plain =>
    if c = '\\' then .ok ([], .escape)
    else if c.toNat < 0x20 then .error .malformed
    else .ok ([c], .plain)
  | .escape =>
    if c = 'u' then .ok ([], .digits none [])
    else match simpleEscape? c with
      | some c => .ok ([c], .plain)
      | none => .error .malformed
  | .digits leading got =>
    let got := got ++ [c]
    if got.length < 4 then .ok ([], .digits leading got)
    else match hex? got with
      | none => .error .malformed
      | some n => if decoded then numbered leading n else .ok ([], .plain)
  | .pair leading => if c = '\\' then .ok ([], .pairEscape leading) else .error .malformed
  | .pairEscape leading =>
    if c = 'u' then .ok ([], .digits (some leading) []) else .error .malformed

def readString (decoded : Bool) : StringState → Reader (List Char)
  | _, [] => .error .truncated
  | state, c :: s =>
    match state, c with
    | .plain, '"' => .ok ([], s)
    | _, _ => do
      let (octets, state) ← stringStep decoded state c
      let (rest, s) ← readString decoded state s
      return (octets ++ rest, s)

def readText : Reader (List Char) := fun s => do
  let (octets, s) ← readString true .plain s
  match Utf8.decode? octets with
  | some text => return (text, s)
  | none => .error .malformed

def skipText (s : List Char) : Except Fault (List Char) :=
  Prod.snd <$> readString false .plain s

end BranchSim.Json
