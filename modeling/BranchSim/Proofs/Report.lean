import BranchSim.Report
import Mathlib.Data.List.Forall2

namespace BranchSim

theorem Column.lines_append (ls ls' : List String) : lines (ls ++ ls') = lines ls ++ lines ls' := by
  rw [lines, List.map_append, String.join_append]
  rfl

theorem Stats.figures_stored {s : Stats} (lookups : s.lookups < UInt64.size)
    (divergent : s.divergent < UInt64.size) : s.stored.figures = s.figures := by
  obtain ⟨correct, wrong⟩ : s.correct < UInt64.size ∧ s.wrong < UInt64.size := by
    unfold Stats.lookups at lookups
    omega
  have total : s.stored.lookups.toNat = s.lookups := by
    rw [StoredStats.lookups, UInt64.toNat_add, stored, UInt64.toNat_ofNat_of_lt' correct,
      UInt64.toNat_ofNat_of_lt' wrong]
    exact Nat.mod_eq_of_lt lookups
  rw [StoredStats.figures, Stats.figures, total, stored, UInt64.toNat_ofNat_of_lt' correct,
    UInt64.toNat_ofNat_of_lt' wrong, UInt64.toNat_ofNat_of_lt' divergent]

theorem Section.mem_all (sec : Section) : sec ∈ all := by
  cases sec with
  | summary => decide
  | branch => decide
  | sites => decide

theorem Report.lines_of_wants (clock : Clock) {request : List String} (f : Figures) {sec : Section}
    (wanted : wants request sec) :
    ∃ before after, lines clock request f = before ++ sectionLines clock f sec ++ after := by
  have shown : sec ∈ Section.all.filter (wants request) :=
    List.mem_filter.mpr ⟨sec.mem_all, wanted⟩
  obtain ⟨front, back, split⟩ := List.append_of_mem shown
  refine ⟨[doubleRule, "BRANCH PREDICTION STATISTICS", doubleRule] ++
    front.flatMap (sectionLines clock f), back.flatMap (sectionLines clock f) ++ [doubleRule], ?_⟩
  rw [lines, split, List.flatMap_append, List.flatMap_cons]
  simp only [List.append_assoc]

namespace Report

def secondsLine (clock : Clock) : String :=
  s!"host_seconds             {clock.seconds} s"

def rateLine (branches : Nat) (clock : Clock) : String :=
  s!"sim_rate                 {clock.rate branches} kbranch/s"

inductive SameLine (clock clock' : Clock) : String → String → Prop
  | refl (l : String) : SameLine clock clock' l l
  | seconds : SameLine clock clock' (secondsLine clock) (secondsLine clock')
  | rate (branches : Nat) :
    SameLine clock clock' (rateLine branches clock) (rateLine branches clock')

abbrev SameLines (clock clock' : Clock) : List String → List String → Prop :=
  List.Forall₂ (SameLine clock clock')

variable (clock clock' : Clock)

theorem sameLines_refl (ls : List String) : SameLines clock clock' ls ls :=
  List.forall₂_same.2 fun l _ => .refl l

theorem sameLines_sectionLines (f : Figures) (sec : Section) :
    SameLines clock clock' (sectionLines clock f sec) (sectionLines clock' f sec) := by
  cases sec with
  | summary =>
      exact .cons .seconds <| .cons (.refl _) <| .cons (.rate f.lookups) <| .cons (.refl _) <|
        .cons (.refl _) .nil
  | branch => exact sameLines_refl clock clock' _
  | sites => exact sameLines_refl clock clock' _

theorem sameLines_lines (request : List String) (f : Figures) :
    SameLines clock clock' (lines clock request f) (lines clock' request f) := by
  have sections (secs : List Section) : SameLines clock clock'
      (secs.flatMap (sectionLines clock f)) (secs.flatMap (sectionLines clock' f)) := by
    induction secs with
    | nil => exact .nil
    | cons sec secs ih => exact List.rel_append (sameLines_sectionLines clock clock' f sec) ih
  have heading := sameLines_refl clock clock'
    [doubleRule, "BRANCH PREDICTION STATISTICS", doubleRule]
  exact List.rel_append (List.rel_append heading (sections _)) (sameLines_refl clock clock' _)

end Report

end BranchSim
