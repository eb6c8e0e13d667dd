import BranchSim.Workload.Branching

namespace BranchSim.Workload

def fibSite : Address := 0x13008

def fib : Nat → Recorded Event Nat
  | 0 => do
    let _ ← branch fibSite true
    return 0
  | 1 => do
    let _ ← branch fibSite true
    return 1
  | n + 2 => do
    let _ ← branch fibSite false
    let a ← fib (n + 1)
    let b ← fib n
    return a + b

end BranchSim.Workload
