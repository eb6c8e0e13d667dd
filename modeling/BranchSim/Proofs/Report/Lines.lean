import BranchSim.Proofs.Column
import BranchSim.Proofs.Report

namespace BranchSim

namespace Column

theorem oneLine_append {s t : String} : OneLine (s ++ t) ↔ OneLine s ∧ OneLine t := by
  rw [OneLine, String.toList_append, List.mem_append, not_or]

theorem oneLine_toString (n : Nat) : OneLine (toString n) := by
  intro member
  exact absurd (isDigit_of_mem_toString n _ member) (by decide)

theorem oneLine_hex (digits n : Nat) : OneLine (hex digits n) := by
  intro member
  exact (solid_hex digits n _ member).2 rfl

theorem oneLine_left {width : Nat} {s : String} (single : OneLine s) : OneLine (left width s) := by
  rw [OneLine, toList_left, List.mem_append, not_or]
  exact ⟨single, fun member => absurd (List.eq_of_mem_replicate member) (by decide)⟩

end Column

open Column

theorem Decimal.oneLine_ofUnits (places n : Nat) : OneLine (ofUnits places n) := by
  have digits (k : Nat) : '\n' ∉ (Nat.toDigits 10 k).leftpad places '0' := by
    rw [List.leftpad, List.mem_append, not_or]
    constructor
    · exact fun member => absurd (List.eq_of_mem_replicate member) (by decide)
    · intro member
      exact absurd (Nat.isDigit_of_mem_toDigits (by decide) (Nat.le_refl 10) member) (by decide)
  refine oneLine_append.2 ⟨oneLine_append.2 ⟨oneLine_toString _, ?_⟩, ?_⟩
  · decide
  · rw [OneLine, String.toList_ofList]
    exact digits _

theorem oneLine_percent (x : Float) : OneLine (percent x) :=
  Decimal.oneLine_ofUnits 2 _

theorem Clock.oneLine_seconds (clock : Clock) : OneLine clock.seconds := by
  cases clock with
  | hidden => exact (by decide : OneLine "#")
  | elapsed => exact Decimal.oneLine_ofUnits 4 _

theorem Clock.oneLine_rate (branches : Nat) (clock : Clock) : OneLine (clock.rate branches) := by
  cases clock with
  | hidden => exact (by decide : OneLine "#")
  | elapsed => exact Decimal.oneLine_ofUnits 2 _

namespace Report

theorem oneLine_rule : OneLine rule := by
  decide

theorem oneLine_doubleRule : OneLine doubleRule := by
  decide

theorem oneLine_labelled (label : String) (plain : OneLine label) {shown : String}
    (single : OneLine shown) : OneLine (toString label ++ toString shown) :=
  oneLine_append.2 ⟨plain, single⟩

theorem oneLine_siteLine (site : Site) : OneLine (siteLine site) := by
  have number (n : Nat) : OneLine (left 8 (toString n)) := oneLine_left (oneLine_toString n)
  have rate := oneLine_percent site.2.missRate
  simp only [siteLine, oneLine_append]
  refine ⟨⟨⟨⟨⟨⟨?_, oneLine_hex _ _⟩, ?_⟩, number _⟩, ?_⟩, number _⟩, ⟨?_, rate⟩, ?_⟩ <;> decide

theorem oneLine_sectionLines (clock : Clock) (f : Figures) (sec : Section) :
    ∀ l ∈ sectionLines clock f sec, OneLine l := by
  have number (label : String) (plain : OneLine label) (n : Nat) :
      OneLine (toString label ++ toString n) :=
    oneLine_labelled label plain (oneLine_toString n)
  cases sec with
  | summary =>
      have seconds := oneLine_labelled "host_seconds             " (by decide)
        clock.oneLine_seconds
      have rate := oneLine_labelled "sim_rate                 " (by decide)
        (clock.oneLine_rate f.lookups)
      refine List.forall_mem_cons.2 ⟨oneLine_labelled _ seconds (by decide), ?_⟩
      refine List.forall_mem_cons.2 ⟨number _ (by decide) _, ?_⟩
      refine List.forall_mem_cons.2 ⟨oneLine_labelled _ rate (by decide), ?_⟩
      refine List.forall_mem_cons.2 ⟨number _ (by decide) _, ?_⟩
      exact List.forall_mem_singleton.2 oneLine_rule
  | branch =>
      have accuracy := oneLine_labelled "  bp.accuracy            " (by decide)
        (oneLine_percent f.accuracy)
      refine List.forall_mem_cons.2 ⟨by decide, ?_⟩
      refine List.forall_mem_cons.2 ⟨number _ (by decide) _, ?_⟩
      refine List.forall_mem_cons.2 ⟨number _ (by decide) _, ?_⟩
      refine List.forall_mem_cons.2 ⟨oneLine_labelled _ accuracy (by decide), ?_⟩
      refine List.forall_mem_cons.2 ⟨number _ (by decide) _, ?_⟩
      exact List.forall_mem_singleton.2 oneLine_rule
  | sites =>
      refine List.forall_mem_cons.2 ⟨by decide, ?_⟩
      exact List.forall_mem_map.2 fun site _ => oneLine_siteLine site

theorem oneLine_lines (clock : Clock) (request : List String) (f : Figures) :
    ∀ l ∈ lines clock request f, OneLine l := by
  have heading : ∀ l ∈ [doubleRule, "BRANCH PREDICTION STATISTICS", doubleRule], OneLine l := by
    decide
  refine List.forall_mem_append.2 ⟨List.forall_mem_append.2 ⟨heading, ?_⟩, ?_⟩
  · rw [List.forall_mem_flatMap]
    exact fun sec _ => oneLine_sectionLines clock f sec
  · exact List.forall_mem_singleton.2 oneLine_doubleRule

theorem lines_eq_of_render {clock clock' : Clock} {request request' : List String} {f f' : Figures}
    (same : render clock request f = render clock' request' f') :
    lines clock request f = lines clock' request' f' :=
  lines_injOn (oneLine_lines clock request f) (oneLine_lines clock' request' f') same

end Report

end BranchSim
