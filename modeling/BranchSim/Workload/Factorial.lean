import BranchSim.Workload.Branching

namespace BranchSim.Workload.Factorial

def mulLoop : Address := 0x15000
def mulBit : Address := 0x15008
def loopSite : Address := 0x15100

theorem half_lt {b : Int64} (h : 0 < b) : (b / 2).toNatClampNeg < b.toNatClampNeg := by
  have pos : 0 < b.toInt := Int64.lt_iff_toInt_lt.1 h
  have half : (b / 2).toInt = b.toInt.tdiv 2 := Int64.toInt_div_of_ne_right b 2 (by decide)
  simp only [Int64.toNatClampNeg, half]
  rw [Int.tdiv_eq_ediv_of_nonneg (by omega)]
  omega

/-- Adds `a` to the result for each set digit of `b`, doubling `a` from digit to digit. -/
def mulAdd (result a b : Int64) : Recorded Event Int64 :=
  if h : 0 < b then do
    let _ ← branch mulLoop true
    let odd ← branch mulBit (b % 2 != 0)
    mulAdd (if odd then result + a else result) (a + a) (b / 2)
  else do
    let _ ← branch mulLoop false
    return result
termination_by b.toNatClampNeg
decreasing_by exact half_lt h

def mul (a b : Int64) : Recorded Event Int64 :=
  mulAdd 0 a b

def run (n : Nat) : Recorded Event Int64 :=
  loopOver loopSite (fun product i => mul product (Int64.ofNat i)) (List.range' 2 (n - 1)) 1

end BranchSim.Workload.Factorial
