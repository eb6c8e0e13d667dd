import BranchSim.Proofs.Report.Lines

namespace BranchSim

namespace Report

def maskLine (l : String) : String :=
  if "host_seconds".toList <+: l.toList then secondsLine .hidden
  else if "sim_rate".toList <+: l.toList then rateLine 0 .hidden
  else l

def masked (text : String) : String :=
  Column.lines ((Column.split text).map maskLine)

abbrev Apart (s t : List Char) : Prop :=
  ¬ s <+: t ∧ ¬ t <+: s

theorem Apart.append {s t : List Char} (apart : Apart s t) (rest : List Char) :
    Apart s (t ++ rest) := by
  have front : t <+: t ++ rest := List.prefix_append t rest
  refine ⟨fun within => ?_, fun within => apart.2 (front.trans within)⟩
  rcases List.prefix_or_prefix_of_prefix within front with first | second
  · exact apart.1 first
  · exact apart.2 second

abbrev Untimed (l : String) : Prop :=
  Apart "host_seconds".toList l.toList ∧ Apart "sim_rate".toList l.toList

theorem Untimed.append {l : String} (untimed : Untimed l) (s : String) :
    Untimed (toString l ++ toString s) := by
  have text : (toString l ++ toString s).toList = l.toList ++ s.toList := String.toList_append
  rw [Untimed, text]
  exact ⟨untimed.1.append s.toList, untimed.2.append s.toList⟩

theorem maskLine_of_untimed {l : String} (untimed : Untimed l) : maskLine l = l :=
  (if_neg untimed.1.1).trans (if_neg untimed.2.1)

theorem toString_string (s : String) : toString s = s := rfl

theorem maskLine_secondsLine (clock : Clock) :
    maskLine (secondsLine clock) = secondsLine .hidden := by
  have label : "host_seconds".toList <+: "host_seconds             ".toList := by
    decide +kernel
  have within : "host_seconds".toList <+: (secondsLine clock).toList := by
    unfold secondsLine
    simp only [toString_string, String.toList_append, List.append_assoc]
    exact label.trans (List.prefix_append ..)
  exact if_pos within

theorem maskLine_rateLine (branches : Nat) (clock : Clock) :
    maskLine (rateLine branches clock) = rateLine branches .hidden := by
  have label : "sim_rate".toList <+: "sim_rate                 ".toList := by
    decide +kernel
  have other : Apart "host_seconds".toList "sim_rate                 ".toList := by decide
  have within : "sim_rate".toList <+: (rateLine branches clock).toList ∧
      Apart "host_seconds".toList (rateLine branches clock).toList := by
    unfold rateLine
    simp only [toString_string, String.toList_append, List.append_assoc]
    exact ⟨label.trans (List.prefix_append ..), other.append _⟩
  exact (if_neg within.2.1).trans (if_pos within.1)

theorem map_maskLine {ls : List String} (untimed : ∀ l ∈ ls, Untimed l) : ls.map maskLine = ls := by
  rw [List.map_congr_left fun l member => maskLine_of_untimed (untimed l member)]
  exact List.map_id ls

theorem map_maskLine_sectionLines (clock : Clock) (f : Figures) (sec : Section) :
    (sectionLines clock f sec).map maskLine = sectionLines .hidden f sec := by
  cases sec with
  | summary =>
      have branches : Untimed "sim_branches             " := by decide
      have sites : Untimed "sim_sites                " := by decide
      have last : [rule].map maskLine = [rule] := map_maskLine (by decide)
      exact congrArg₂ List.cons (maskLine_secondsLine clock) <|
        congrArg₂ List.cons (maskLine_of_untimed (branches.append _)) <|
          congrArg₂ List.cons (maskLine_rateLine f.lookups clock) <|
            congrArg₂ List.cons (maskLine_of_untimed (sites.append _)) last
  | branch =>
      refine map_maskLine (List.forall_mem_cons.2 ⟨by decide, ?_⟩)
      refine List.forall_mem_cons.2 ⟨Untimed.append (by decide) _, ?_⟩
      refine List.forall_mem_cons.2 ⟨Untimed.append (by decide) _, ?_⟩
      refine List.forall_mem_cons.2 ⟨(Untimed.append (by decide) _).append _, ?_⟩
      refine List.forall_mem_cons.2 ⟨Untimed.append (by decide) _, ?_⟩
      exact List.forall_mem_singleton.2 (by decide)
  | sites =>
      refine map_maskLine (List.forall_mem_cons.2 ⟨by decide, ?_⟩)
      refine List.forall_mem_map.2 fun site _ => ?_
      have indented : Untimed "  " := by decide
      exact ((((((indented.append _).append _).append _).append _).append _).append _)

theorem masked_render (clock : Clock) (request : List String) (f : Figures) :
    masked (render clock request f) = render .hidden request f := by
  have single := oneLine_lines clock request f
  have heading : ∀ l ∈ [doubleRule, "BRANCH PREDICTION STATISTICS", doubleRule], Untimed l := by
    decide
  have footer : ∀ l ∈ [doubleRule], Untimed l := by
    decide
  rw [masked, render, Column.split_lines single, render, lines, List.map_append, List.map_append,
    map_maskLine heading, map_maskLine footer, List.map_flatMap]
  simp only [map_maskLine_sectionLines]
  rfl

theorem wants_iff {request : List String} {sec : Section} :
    wants request sec ↔ request = [] ∨ sec.name ∈ request := by
  rw [wants, Bool.or_eq_true, List.isEmpty_iff, List.contains_iff_mem]

def block (request : List String) (f : Figures) (sec : Section) : List String :=
  if request = [] ∨ sec.name ∈ request then sectionLines .hidden f sec else []

theorem flatMap_filter_wants (request : List String) (f : Figures) (secs : List Section) :
    (secs.filter (wants request)).flatMap (sectionLines .hidden f) =
      secs.flatMap (block request f) := by
  induction secs with
  | nil => rfl
  | cons sec secs ih =>
      by_cases wanted : wants request sec
      · rw [List.filter_cons_of_pos wanted, List.flatMap_cons, List.flatMap_cons, ih, block,
          if_pos (wants_iff.1 wanted)]
      · rw [List.filter_cons_of_neg wanted, List.flatMap_cons, ih, block,
          if_neg (wants_iff.not.1 wanted), List.nil_append]

theorem masked_render_congr (clock clock' : Clock) {request request' : List String} (f : Figures)
    (same : ∀ sec : Section,
      request = [] ∨ sec.name ∈ request ↔ request' = [] ∨ sec.name ∈ request') :
    masked (render clock request f) = masked (render clock' request' f) := by
  have agree : wants request = wants request' := by
    funext sec
    rw [Bool.eq_iff_iff, wants_iff, wants_iff, same]
  rw [masked_render, masked_render, render, render, lines, lines, agree]

theorem name_mem (sec : Section) : sec.name ∈ ["summary", "branch", "sites"] := by
  cases sec with
  | summary => decide
  | branch => decide
  | sites => decide

theorem mem_insert_name {names front back : List String} {name : String}
    (idle : name ∈ front ++ back ∨ name ∉ names) {n : String} (known : n ∈ names) :
    n ∈ front ++ name :: back ↔ n ∈ front ++ back := by
  rw [List.perm_middle.mem_iff, List.mem_cons]
  refine or_iff_right_of_imp fun this => ?_
  subst this
  exact idle.resolve_right (not_not_intro known)

/-- A report is its heading, the sections that the request names or all if it is empty, in their own
order, and a closing rule. So it does not depend on the order of the names, nor on names that come
again or are unknown. -/
theorem sections_chosen_by_name (clock clock' : Clock) (s : StoredStats) :
    (∀ request, masked (render clock request s) = Column.lines (
      [doubleRule, "BRANCH PREDICTION STATISTICS", doubleRule] ++
        (block request s .summary ++ (block request s .branch ++ block request s .sites)) ++
          [doubleRule])) ∧
    (∀ request request' : List String, request.Perm request' →
      masked (render clock request s) = masked (render clock' request' s)) ∧
    (∀ (front back : List String) (name : String), front ++ back ≠ [] →
      name ∈ front ++ back ∨ name ∉ ["summary", "branch", "sites"] →
        masked (render clock (front ++ name :: back) s) =
          masked (render clock' (front ++ back) s)) ∧
    ∀ request, (∀ name ∈ ["summary", "branch", "sites"], name ∈ request) →
      masked (render clock request s) = masked (render clock' [] s) := by
  refine ⟨fun request => ?_, fun request request' perm => ?_,
    fun front back name nonempty idle => ?_, fun request all => ?_⟩
  · rw [masked_render, render, lines, flatMap_filter_wants, Section.all, List.flatMap_cons,
      List.flatMap_cons, List.flatMap_singleton]
  · refine masked_render_congr clock clock' s fun sec => or_congr ?_ perm.mem_iff
    exact ⟨fun none => (none ▸ perm).nil_eq.symm, fun none => (none ▸ perm).eq_nil⟩
  · have inserted : front ++ name :: back ≠ [] :=
      List.append_ne_nil_of_right_ne_nil front (List.cons_ne_nil name back)
    refine masked_render_congr clock clock' s fun sec => ?_
    rw [or_iff_right inserted, or_iff_right nonempty]
    exact mem_insert_name idle (name_mem sec)
  · refine masked_render_congr clock clock' s fun sec => ?_
    exact iff_of_true (.inr (all sec.name (name_mem sec))) (.inl rfl)

theorem sections_chosen_by_name_among_others :
    let s : StoredStats := { correct := 0xFFFFFFFFFFFFFFFF, wrong := 1 }
    masked (render (.elapsed 7) ["sites", "totals", "branch", "sites"] s) =
        masked (render .hidden ["branch", "sites"] s) ∧
      masked (render (.elapsed 7) ["sites", "summary", "branch"] s) = masked (render .hidden [] s) ∧
      masked (render (.elapsed 7) ["totals"] s) = Column.lines
        ([doubleRule, "BRANCH PREDICTION STATISTICS", doubleRule] ++ [doubleRule]) ∧
      masked (render (.elapsed 7) ["summary"] s) = Column.lines
        ([doubleRule, "BRANCH PREDICTION STATISTICS", doubleRule,
          "host_seconds             # s", "sim_branches             0",
          "sim_rate                 # kbranch/s", "sim_sites                0", rule] ++
            [doubleRule]) := by
  intro s
  obtain ⟨shown, -, inserted, every⟩ := sections_chosen_by_name (.elapsed 7) .hidden s
  have unknown := inserted ["sites"] ["branch", "sites"] "totals" (by decide) (by decide)
  obtain ⟨-, -, again, -⟩ := sections_chosen_by_name .hidden .hidden s
  have repeated := again [] ["branch", "sites"] "sites" (by decide) (by decide)
  have wrapped : block ["summary"] s .summary = ["host_seconds             # s",
      "sim_branches             0", "sim_rate                 # kbranch/s",
      "sim_sites                0", rule] := by
    decide +kernel
  have summary := shown ["summary"]
  rw [wrapped] at summary
  exact ⟨unknown.trans repeated, every ["sites", "summary", "branch"] (by decide), shown ["totals"],
    summary⟩

end Report

end BranchSim
