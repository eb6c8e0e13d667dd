import BranchSim.Workload.Branching

namespace BranchSim.Workload

namespace Pattern

def loopSite : Address := 0x10010
def wrapSite : Address := 0x10018
def testSite : Address := 0x10024

def round (acc : Nat × Int) : Recorded Event (Nat × Int) := do
  let phase := acc.1 + 1
  let phase := if ← branch wrapSite (phase == 3) then 0 else phase
  let count := if ← branch testSite (phase != 0) then acc.2 + 1 else acc.2
  return (phase, count)

def run (rounds : Nat) : Recorded Event Int :=
  Prod.snd <$> loopOver loopSite (fun acc _ => round acc) (List.range rounds) (0, 0)

end Pattern

namespace Aliasing

/-! The back edges lie `0x100` bytes apart: they share a row of every table of at most 64 rows. -/

def loopA : Address := 0x11000
def loopB : Address := 0x11100
def loopC : Address := 0x11200
def loopD : Address := 0x11300
def outerFirst : Address := 0x11404
def outerSecond : Address := 0x11444

def scaledSum (site : Address) (n : Nat) (scale sum : Int) : Recorded Event Int :=
  loopOver site (fun sum (i : Nat) => pure (sum + i * scale)) (List.range n) sum

def firstOrder (sum : Int) : Recorded Event Int :=
  scaledSum loopA 10 1 sum >>= scaledSum loopB 10 2 >>= scaledSum loopC 10 3
    >>= scaledSum loopD 10 4

def secondOrder (sum : Int) : Recorded Event Int :=
  scaledSum loopA 8 1 sum >>= scaledSum loopC 8 3 >>= scaledSum loopB 8 2
    >>= scaledSum loopD 8 4

def run (rounds : Nat) : Recorded Event Int := do
  let sum ← loopOver outerFirst (fun sum _ => firstOrder sum) (List.range rounds) 0
  loopOver outerSecond (fun sum _ => secondOrder sum) (List.range rounds) sum

end Aliasing

namespace Correlated

def outerSite : Address := 0x12000
def innerJ : Address := 0x12010
def testJ : Address := 0x12018
def innerK : Address := 0x12030
def testK : Address := 0x12038

def chainLoop : Address := 0x12100
def chainMain : Address := 0x12300

def loopA : Address := 0x12200
def testA : Address := 0x12208
def loopB : Address := 0x12240
def testB : Address := 0x12248
def loopC : Address := 0x12280
def testC : Address := 0x12288
def splitMain : Address := 0x12310

def splitSum (loopSite testSite : Address) (n : Nat) (holds : Nat → Bool) (amount : Nat → Int)
    (sum : Int) : Recorded Event Int :=
  loopOver loopSite
    (fun sum i => return if ← branch testSite (holds i) then sum + amount i else sum - amount i)
    (List.range n) sum

def alternating (rounds n : Nat) (sum : Int) : Recorded Event Int :=
  loopOver outerSite
    (fun sum _ => splitSum innerJ testJ n (·.testBit 0) (fun _ => 1) sum
      >>= splitSum innerK testK n (·.testBit 0) (fun _ => 2))
    (List.range rounds) sum

def chainTests (i : Nat) : List (Address × Bool × Int) :=
  [(0x12108, i.testBit 0, 1), (0x12110, i.testBit 1, 2),
    (0x12118, i.testBit 2, 4), (0x12120, i.testBit 3, 8),
    (0x12128, i % 4 == 0, 10), (0x12130, i % 4 == 1, 20),
    (0x12138, i % 4 == 2, 30), (0x12140, i % 4 == 3, 40)]

def chain (n : Nat) (sum : Int) : Recorded Event Int :=
  loopOver chainLoop
    (fun sum i => (chainTests i).foldlM
      (fun sum (site, holds, amount) => return if ← branch site holds then sum + amount else sum)
      sum)
    (List.range n) sum

def splits (n : Nat) (sum : Int) : Recorded Event Int :=
  splitSum loopA testA n (· < n / 2) (↑·) sum
    >>= splitSum loopB testB n (n / 2 ≤ ·) (↑·)
    >>= splitSum loopC testC n (· % 4 < 2) (↑·)

def run : Recorded Event Int := do
  let sum ← alternating 50 20 0
  let sum ← loopOver chainMain (fun sum _ => chain 32 sum) (List.range 10) sum
  loopOver splitMain (fun sum _ => splits 8 sum) (List.range 30) sum

end Correlated

end BranchSim.Workload
