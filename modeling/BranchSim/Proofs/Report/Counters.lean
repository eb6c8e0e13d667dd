import BranchSim.Proofs.Report.Lines
import BranchSim.Proofs.Sites.Ranking

namespace BranchSim

open Column

namespace Report

theorem labelled_inj {label : String} {n n' : Nat}
    (same : toString label ++ toString n = toString label ++ toString n') : n = n' := by
  have text := congrArg String.toList same
  rw [String.toList_append, String.toList_append] at text
  exact toString_injective (List.append_cancel_left text)

theorem toList_siteLine (site : Site) : ∃ rest, (siteLine site).toList =
    "  ".toList ++ ((hex 8 site.1.toNat).toList ++ ' ' :: (" lookups: ".toList ++
      ((left 8 (toString site.2.lookups)).toList ++ ' ' :: ("| mispredicts: ".toList ++
        ((left 8 (toString site.2.mispredictions)).toList ++ ' ' :: rest))))) := by
  refine ⟨"| miss_rate: ".toList ++ ((percent site.2.missRate).toList ++ ['%']), ?_⟩
  simp only [siteLine, String.toList_append, List.append_assoc]
  rfl

theorem siteLine_injective : Function.Injective siteLine := by
  intro site site' same
  obtain ⟨rest, text⟩ := toList_siteLine site
  obtain ⟨rest', text'⟩ := toList_siteLine site'
  have columns := congrArg String.toList same
  rw [text, text'] at columns
  obtain ⟨address, columns⟩ := hex_append_inj (List.append_cancel_left columns)
  obtain ⟨lookups, columns⟩ := left_append_inj (List.append_cancel_left columns)
  obtain ⟨mispredictions, -⟩ := left_append_inj (List.append_cancel_left columns)
  have counters : site.2 = site'.2 := congrArg₂ SiteStats.mk lookups mispredictions
  exact Prod.ext (UInt64.toNat_inj.1 address) counters

theorem lines_branch_sites (clock : Clock) (s : Stats) :
    lines clock ["branch", "sites"] s = [doubleRule, "BRANCH PREDICTION STATISTICS", doubleRule] ++
      (branchLines s ++ (siteLines s ++ [doubleRule])) := by
  have wanted : Section.all.filter (wants ["branch", "sites"]) = [.branch, .sites] := by decide
  rw [lines, wanted, List.append_assoc]
  simp [sectionLines]

/-- Statistics with one report in the branch and sites sections have the same totals and list the
same sites with the same counters. -/
theorem report_determines_counters (clock clock' : Clock) (s s' : Stats)
    (same : render clock ["branch", "sites"] s = render clock' ["branch", "sites"] s') :
    s.correct = s'.correct ∧ s.wrong = s'.wrong ∧ s.divergent = s'.divergent ∧
      s.sites.top 10 = s'.sites.top 10 := by
  have shown := lines_eq_of_render same
  rw [lines_branch_sites, lines_branch_sites] at shown
  have sections := List.append_cancel_left shown
  simp only [branchLines, siteLines, List.cons_append, List.nil_append, List.cons.injEq] at sections
  obtain ⟨-, lookups, wrong, -, divergent, -, -, sites⟩ := sections
  have total : s.correct + s.wrong = s'.correct + s'.wrong := labelled_inj lookups
  have wrong : s.wrong = s'.wrong := labelled_inj wrong
  rw [wrong] at total
  have listed := List.append_cancel_right sites
  exact ⟨Nat.add_right_cancel total, wrong, labelled_inj divergent,
    List.map_injective_iff.2 siteLine_injective listed⟩

theorem report_determines_counters_beyond_columns :
    let wide (i : Nat) : Site := (0xFFFFFFFFFFFFFFF0 + UInt64.ofNat i, ⟨1234567890, 1000000000⟩)
    let listed : SiteTable :=
      (List.range 10).foldl (fun t i => t.insert (wide i).1 (wide i).2) .empty
    let s : Stats := { correct := 5, wrong := 2 ^ 63, sites := listed.insert 4 ⟨5, 0⟩ }
    let s' : Stats := { s with sites := listed.insert 8 ⟨6, 0⟩ }
    render .hidden ["branch", "sites"] s = render (.elapsed 7) ["branch", "sites"] s' ∧
      s.sites ≠ s'.sites ∧ s.wrong = s'.wrong ∧ s.sites.top 10 = s'.sites.top 10 := by
  intro wide listed s s'
  have ranked : s.sites.ranked = (List.range 10).map wide ++ [(4, ⟨5, 0⟩)] :=
    SiteTable.ranked_unique (by decide +kernel) (by decide +kernel)
  have ranked' : s'.sites.ranked = (List.range 10).map wide ++ [(8, ⟨6, 0⟩)] :=
    SiteTable.ranked_unique (by decide +kernel) (by decide +kernel)
  have top : s.sites.top siteLimit = (List.range 10).map wide := by
    rw [SiteTable.top_eq_take, ranked]
    rfl
  have top' : s'.sites.top siteLimit = (List.range 10).map wide := by
    rw [SiteTable.top_eq_take, ranked']
    rfl
  have shown : siteLines s = siteLines s' := by
    simp only [siteLines, Stats.figures, top, top']
  have same :
      render .hidden ["branch", "sites"] s = render (.elapsed 7) ["branch", "sites"] s' := by
    rw [render, render, lines_branch_sites, lines_branch_sites, shown]
    simp only [branchLines, Figures.accuracy, Stats.figures, Stats.lookups, s']
  obtain ⟨-, wrong, -, sites⟩ := report_determines_counters .hidden (.elapsed 7) s s' same
  exact ⟨same, by decide +kernel, wrong, sites⟩

end Report

end BranchSim
