import BranchSim.Decimal.Dyadic

namespace BranchSim.Decimal

/-- The natural number nearest to `num / den`, of two the even one. -/
def roundDiv (num den : Nat) : Nat :=
  let q := num / den
  match compare (2 * (num % den)) den with
  | .lt => q
  | .eq => q + q % 2
  | .gt => q + 1

def ofUnits (places n : Nat) : String :=
  let unit := Nat.pow 10 places
  s!"{n / unit}." ++ String.ofList ((Nat.toDigits 10 (n % unit)).leftpad places '0')

def fixed (places : Nat) (d : Dyadic) : String :=
  ofUnits places (roundDiv (d.num * Nat.pow 10 places) d.den)

end BranchSim.Decimal
