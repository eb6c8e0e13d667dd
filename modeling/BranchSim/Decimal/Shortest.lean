import BranchSim.Decimal.Dyadic

/-!
# Shortest decimals

Among the decimals that read back as a given double, `shortest` finds one with the fewest digits,
and of those the nearest. A decimal lies on the grid of multiples of a power of ten, and the coarser
the grid the fewer its digits, so the search goes from coarse grids to fine ones.
-/

namespace BranchSim.Decimal

structure Scaled where
  digits : Nat
  exponent : Int
deriving DecidableEq, Repr, Inhabited

/-- The multiple of `10 ^ k` nearest to `d` that reads back as `d`, if one does. Values are compared
in quarters of the last binary place: half a place on either side rounds to `d`, and a tie does if
`d` is even. Below a power of two the places are half as wide. -/
def onGrid? (d : Dyadic) (k : Int) : Option Nat :=
  let quarter := Nat.pow 10 (-k).toNat <<< (d.exponent - 2).toNat
  let unit := Nat.pow 10 k.toNat <<< (2 - d.exponent).toNat
  let value := 4 * d.mantissa * quarter
  let below := (if d.mantissa = Dyadic.leadingBit ∧ -1074 < d.exponent then 1 else 2) * quarter
  let above := 2 * quarter
  let low := value / unit
  let high := low + 1
  let even := d.mantissa % 2 = 0
  let lowReads := value < low * unit + below ∨ (even ∧ value = low * unit + below)
  let highReads := high * unit < value + above ∨ (even ∧ high * unit = value + above)
  if lowReads ∧ highReads then
    match compare (value - low * unit) (high * unit - value) with
    | .lt => some low
    | .eq => some (low + low % 2)
    | .gt => some high
  else if lowReads then some low
  else if highReads then some high
  else none

/-- The powers of ten from the largest below every double to the finest grid ever needed. -/
def grids : List Int :=
  (List.range 640).map fun (i : Nat) => 309 - (i : Int)

def shortest (d : Dyadic) : Scaled :=
  if d.mantissa = 0 then ⟨0, 0⟩
  else (grids.findSome? fun k => (⟨·, k⟩) <$> onGrid? d k).getD ⟨0, 0⟩

end BranchSim.Decimal
