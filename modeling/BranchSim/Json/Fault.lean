import BranchSim.Decimal.Shortest
import BranchSim.Text.Quoted

namespace BranchSim.Json

/-- What stands where something else is expected. A double is given by its bits. -/
inductive Found
  | null
  | boolean (b : Bool)
  | integer (n : Int)
  | double (bits : UInt64)
  | text (s : List Char)
  | array
  | object
deriving DecidableEq, Repr

inductive DataFault
  | wrongType (found : Found) (expected : String)
  | outOfRange (n : Int) (expected : String)
  | wrongLength (length : Nat) (record : String) (fields : Nat)
  | unknownVariant (name : List Char) (known : List String)
  | missingField (key : String)
  | duplicateField (key : String)
deriving DecidableEq, Repr

inductive Fault
  | malformed
  | truncated
  | data (fault : DataFault)
deriving DecidableEq, Repr

/-- A double in a message: positional where its leading digit stands between the fifth place after
the point and the sixteenth before it, and otherwise with an exponent. -/
def doubleText (bits : UInt64) : String :=
  let s := Decimal.shortest (.ofBits bits)
  let digits := Nat.toDigits 10 s.digits
  let zeros (n : Nat) : List Char := List.replicate n '0'
  let lead : Int := s.exponent + digits.length - 1
  let magnitude : List Char :=
    if lead < -5 ∨ 15 < lead then
      (match digits with
        | [d] => [d]
        | d :: rest => d :: '.' :: rest
        | [] => [])
      ++ ['e', if lead < 0 then '-' else '+'] ++ Nat.toDigits 10 lead.natAbs
    else if 0 ≤ s.exponent then digits ++ zeros s.exponent.toNat ++ ['.', '0']
    else if 0 ≤ lead then
      digits.take (lead.toNat + 1) ++ '.' :: digits.drop (lead.toNat + 1)
    else '0' :: '.' :: zeros (-lead - 1).toNat ++ digits
  (if bits >>> 63 = 1 then "-" else "") ++ String.ofList magnitude

def Found.describe : Found → String
  | null => "null"
  | boolean b => s!"boolean `{b}`"
  | integer n => s!"integer `{n}`"
  | double bits => s!"floating point `{doubleText bits}`"
  | text s => s!"string {Quoted.text s}"
  | array => "sequence"
  | object => "map"

def DataFault.message : DataFault → String
  | wrongType found expected => s!"invalid type: {found.describe}, expected {expected}"
  | outOfRange n expected => s!"invalid value: integer `{n}`, expected {expected}"
  | wrongLength length record fields =>
    s!"invalid length {length}, expected struct {record} with {fields} elements"
  | unknownVariant name known =>
    let names := ", ".intercalate (known.map fun k => s!"`{k}`")
    s!"unknown variant `{String.ofList name}`, expected one of {names}"
  | missingField key => s!"missing field `{key}`"
  | duplicateField key => s!"duplicate field `{key}`"

end BranchSim.Json
