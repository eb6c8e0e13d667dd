import BranchSim.Event
import BranchSim.Recorded

namespace BranchSim.Workload

def branch (site : Address) (cond : Bool) : Recorded Event Bool :=
  ⟨cond, [⟨site, cond⟩]⟩

@[simp] theorem value_branch (site : Address) (cond : Bool) :
    (branch site cond).value = cond := rfl

@[simp] theorem emitted_branch (site : Address) (cond : Bool) :
    (branch site cond).emitted = [⟨site, cond⟩] := rfl

def loopOver {α β : Type} (site : Address) (body : β → α → Recorded Event β) :
    List α → β → Recorded Event β
  | [], acc => do
    let _ ← branch site false
    return acc
  | a :: rest, acc => do
    let _ ← branch site true
    let acc ← body acc a
    loopOver site body rest acc

end BranchSim.Workload
