import BranchSim.Sites

namespace BranchSim

structure Fetched where
  event : Event
  predicted : Bool
deriving DecidableEq, Repr, Inhabited

def Fetched.wrong (b : Fetched) : Bool :=
  b.predicted != b.event.taken

structure Stats where
  correct : Nat := 0
  wrong : Nat := 0
  /-- Branches whose prediction at fetch was not the one just before training. -/
  divergent : Nat := 0
  sites : SiteTable := .empty
deriving DecidableEq, Inhabited

namespace Stats

def record (s : Stats) (b : Fetched) : Stats :=
  { s with
    correct := s.correct + (!b.wrong).toNat
    wrong := s.wrong + b.wrong.toNat
    sites := s.sites.alter b.event.pc (·.count b.wrong) }

def diverge (s : Stats) (changed : Bool) : Stats :=
  { s with divergent := s.divergent + changed.toNat }

def lookups (s : Stats) : Nat :=
  s.correct + s.wrong

end Stats

structure StoredStats where
  correct : UInt64 := 0
  wrong : UInt64 := 0
  divergent : UInt64 := 0
  sites : SiteTable := .empty
deriving DecidableEq, Inhabited

def StoredStats.lookups (s : StoredStats) : UInt64 :=
  s.correct + s.wrong

def Stats.stored (s : Stats) : StoredStats where
  correct := .ofNat s.correct
  wrong := .ofNat s.wrong
  divergent := .ofNat s.divergent
  sites := s.sites

end BranchSim
