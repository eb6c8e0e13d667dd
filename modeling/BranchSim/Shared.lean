import BranchSim.Predictor

namespace BranchSim.Shared

inductive Call
  | predict (pc : Address)
  | train (e : Event)
  | reset
  | trainPredict (e : Event)
  /-- Trains and then fails while it holds the lock; the next call recovers the lock. -/
  | trainFail (e : Event)
deriving DecidableEq, Repr

def Call.fails : Call → Bool
  | trainFail _ => true
  | _ => false

inductive Answer
  | done
  | direction (taken : Bool)
  | failed
deriving DecidableEq, Repr

def Call.apply (p : Predictor) : Call → Predictor
  | predict _ => p
  | train e | trainPredict e | trainFail e => p.train e
  | reset => p.reset

def Call.answer (p : Predictor) : Call → Answer
  | predict pc => .direction (p.predict pc)
  | trainPredict e => .direction ((p.train e).predict e.pc)
  | train _ | reset => .done
  | trainFail _ => .failed

/-- A predictor behind a lock, which is poisoned once a call has failed while it held it. -/
structure Guarded where
  predictor : Predictor
  poisoned : Bool := false
deriving DecidableEq, Repr, Inhabited

def Guarded.lock (g : Guarded) : Except Predictor Predictor :=
  if g.poisoned then .error g.predictor else .ok g.predictor

/-- Takes the lock. A poisoned one is recovered: no call fails in the middle of a training. -/
def Guarded.access (g : Guarded) : Predictor :=
  match g.lock with
  | .ok p => p
  | .error p => p

def Call.perform (g : Guarded) (c : Call) : Guarded × Answer :=
  let p := g.access
  (⟨c.apply p, g.poisoned || c.fails⟩, c.answer p)

end BranchSim.Shared
