namespace BranchSim

/-- The value `mantissa * 2 ^ exponent`. -/
structure Dyadic where
  mantissa : Nat
  exponent : Int
deriving DecidableEq, Repr, Inhabited

namespace Dyadic

/-- The bit of the mantissa that a normal double does not store. -/
def leadingBit : Nat := 0x10000000000000

def ofBits (bits : UInt64) : Dyadic :=
  let fraction := (bits &&& 0xFFFFFFFFFFFFF).toNat
  let exponent := ((bits >>> 52) &&& 0x7FF).toNat
  if exponent = 0 then ⟨fraction, -1074⟩ else ⟨leadingBit + fraction, (exponent : Int) - 1075⟩

def ofFloat (x : Float) : Dyadic :=
  ofBits x.toBits

def num (d : Dyadic) : Nat :=
  d.mantissa <<< d.exponent.toNat

def den (d : Dyadic) : Nat :=
  1 <<< (-d.exponent).toNat

end Dyadic

end BranchSim
