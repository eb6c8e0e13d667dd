import BranchSim.Column
import BranchSim.Decimal.Fixed
import BranchSim.Stats

namespace BranchSim

def ratio (part whole : Nat) : Float :=
  if whole = 0 then 0 else (UInt64.ofNat part).toFloat / (UInt64.ofNat whole).toFloat

def percent (x : Float) : String :=
  Decimal.fixed 2 (.ofFloat (x * 100))

def Stats.accuracy (s : Stats) : Float :=
  ratio s.correct s.lookups

def SiteStats.missRate (s : SiteStats) : Float :=
  ratio s.mispredictions s.lookups

structure Figures where
  lookups : Nat
  correct : Nat
  wrong : Nat
  divergent : Nat
  sites : SiteTable

def Figures.accuracy (f : Figures) : Float :=
  ratio f.correct f.lookups

def Stats.figures (s : Stats) : Figures :=
  ⟨s.lookups, s.correct, s.wrong, s.divergent, s.sites⟩

def StoredStats.figures (s : StoredStats) : Figures :=
  ⟨s.lookups.toNat, s.correct.toNat, s.wrong.toNat, s.divergent.toNat, s.sites⟩

instance : Coe Stats Figures := ⟨Stats.figures⟩

instance : Coe StoredStats Figures := ⟨StoredStats.figures⟩

inductive Section
  | summary
  | branch
  | sites
deriving DecidableEq, Repr

namespace Section

def all : List Section := [summary, branch, sites]

def name : Section → String
  | summary => "summary"
  | branch => "branch"
  | sites => "sites"

end Section

inductive Clock
  | hidden
  | elapsed (nanoseconds : Nat)

namespace Clock

def seconds : Clock → String
  | hidden => "#"
  | elapsed ns => Decimal.ofUnits 4 (Decimal.roundDiv ns 100000)

def rate (branches : Nat) : Clock → String
  | hidden => "#"
  | elapsed ns =>
    Decimal.ofUnits 2 (if ns = 0 then 0 else Decimal.roundDiv (branches * 100000000) ns)

end Clock

namespace Report

def doubleRule : String := String.ofList (List.replicate 58 '=')

def rule : String := String.ofList (List.replicate 58 '-')

def siteLimit : Nat := 10

def summaryLines (clock : Clock) (f : Figures) : List String :=
  [s!"host_seconds             {clock.seconds} s",
    s!"sim_branches             {f.lookups}",
    s!"sim_rate                 {clock.rate f.lookups} kbranch/s",
    s!"sim_sites                {f.sites.size}",
    rule]

def branchLines (f : Figures) : List String :=
  ["BRANCH PREDICTION",
    s!"  bp.lookups             {f.lookups}",
    s!"  bp.mispredicts         {f.wrong}",
    s!"  bp.accuracy            {percent f.accuracy}%",
    s!"  bp.divergent           {f.divergent}",
    rule]

def siteLine (site : Site) : String :=
  let lookups := Column.left 8 s!"{site.2.lookups}"
  let mispredictions := Column.left 8 s!"{site.2.mispredictions}"
  s!"  {Column.hex 8 site.1.toNat}  lookups: {lookups} | mispredicts: {mispredictions}"
    ++ s!" | miss_rate: {percent site.2.missRate}%"

def siteLines (f : Figures) : List String :=
  "TOP MISPREDICTING SITES" :: (f.sites.top siteLimit).map siteLine

def sectionLines (clock : Clock) (f : Figures) : Section → List String
  | .summary => summaryLines clock f
  | .branch => branchLines f
  | .sites => siteLines f

def wants (request : List String) (sec : Section) : Bool :=
  request.isEmpty || request.contains sec.name

def lines (clock : Clock) (request : List String) (f : Figures) : List String :=
  [doubleRule, "BRANCH PREDICTION STATISTICS", doubleRule]
    ++ (Section.all.filter (wants request)).flatMap (sectionLines clock f)
    ++ [doubleRule]

def render (clock : Clock) (request : List String) (f : Figures) : String :=
  Column.lines (lines clock request f)

end Report

end BranchSim
