import BranchSim.Workload.Branching

namespace BranchSim.Workload.BubbleSort

def outerSite : Address := 0x14000
def innerSite : Address := 0x14010
def compareSite : Address := 0x1401c
def verifyLoopSite : Address := 0x14100
def verifySite : Address := 0x1410c

def pass : Nat → List Int → Recorded Event (List Int)
  | k + 1, a :: b :: rest => do
    let _ ← branch innerSite true
    if ← branch compareSite (b < a) then
      (b :: ·) <$> pass k (a :: rest)
    else
      (a :: ·) <$> pass k (b :: rest)
  | _, xs => do
    let _ ← branch innerSite false
    return xs

def passes : Nat → List Int → Recorded Event (List Int)
  | 0, xs => do
    let _ ← branch outerSite false
    return xs
  | k + 1, xs => do
    let _ ← branch outerSite true
    pass (k + 1) xs >>= passes k

def sort (xs : List Int) : Recorded Event (List Int) :=
  passes (xs.length - 1) xs

def verify : List Int → Recorded Event Bool
  | a :: b :: rest => do
    let _ ← branch verifyLoopSite true
    if ← branch verifySite (b < a) then return false
    else verify (b :: rest)
  | _ => do
    let _ ← branch verifyLoopSite false
    return true

def run (xs : List Int) : Recorded Event Int := do
  let sorted ← sort xs
  return if ← verify sorted then 1 else 0

def xorshift (s : UInt64) : UInt64 :=
  let s := s ^^^ (s <<< 13)
  let s := s ^^^ (s >>> 7)
  s ^^^ (s <<< 17)

def randomValues : Nat → UInt64 → List Int
  | 0, _ => []
  | n + 1, s => ((xorshift s).toNat % 1000 : Nat) :: randomValues n (xorshift s)

def data : List Int := randomValues 50 123456789

end BranchSim.Workload.BubbleSort
