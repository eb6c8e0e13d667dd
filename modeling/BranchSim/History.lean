/-!
# Global history

The history register packs the most recent outcomes into one machine word. Bit `0` is the newest;
a register of width `w` forgets the outcomes older than `w` branches.
-/

namespace BranchSim

def lowMask (bits : Nat) : UInt64 :=
  if 64 ≤ bits then ~~~0 else (1 <<< UInt64.ofNat bits) - 1

structure History where
  word : UInt64
deriving DecidableEq, Repr, Inhabited

namespace History

def maxWidth : Nat := 64

def empty : History := ⟨0⟩

def push (h : History) (width : Nat) (taken : Bool) : History :=
  ⟨((h.word <<< 1) ||| (if taken then 1 else 0)) &&& lowMask width⟩

/-- The outcome `i` branches before the newest one. -/
def outcome (h : History) (i : Nat) : Bool :=
  h.word.toNat.testBit i

def signs (h : History) (width : Nat) : List Int :=
  (List.range width).map fun i => if h.outcome i then 1 else -1

end History

end BranchSim
