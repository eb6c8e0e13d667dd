import BranchSim.Proofs.Sites

namespace BranchSim

def Site.Outranks (x y : Site) : Prop :=
  y.2.mispredictions < x.2.mispredictions ∨
    x.2.mispredictions = y.2.mispredictions ∧ x.1 < y.1

instance (x y : Site) : Decidable (x.Outranks y) :=
  inferInstanceAs (Decidable (_ ∨ _))

theorem Site.Outranks.asymm {x y : Site} (first : x.Outranks y) : ¬ y.Outranks x := by
  rintro second
  rcases first with more | ⟨same, lower⟩
  · rcases second with more' | ⟨same', -⟩ <;> omega
  · rcases second with more' | ⟨-, lower'⟩
    · omega
    · exact UInt64.lt_asymm lower lower'

namespace SiteTable

theorem ranksBefore_iff {x y : Site} : ranksBefore x y ↔
    y.2.mispredictions < x.2.mispredictions ∨
      x.2.mispredictions = y.2.mispredictions ∧ x.1 ≤ y.1 := by
  rw [ranksBefore, Bool.or_eq_true, Bool.and_eq_true, decide_eq_true_eq, decide_eq_true_eq,
    beq_iff_eq, eq_comm (a := y.2.mispredictions)]

theorem ranksBefore_trans (x y z : Site) (first : ranksBefore x y) (second : ranksBefore y z) :
    ranksBefore x z := by
  rw [ranksBefore_iff] at first second ⊢
  rcases first with more | ⟨same, lower⟩
  · left
    omega
  · rcases second with more | ⟨same', lower'⟩
    · left
      omega
    · exact .inr ⟨same.trans same', UInt64.le_trans lower lower'⟩

theorem ranksBefore_total (x y : Site) : ranksBefore x y || ranksBefore y x := by
  rw [Bool.or_eq_true, ranksBefore_iff, ranksBefore_iff]
  rcases Nat.lt_trichotomy x.2.mispredictions y.2.mispredictions with fewer | same | more
  · exact .inr (.inl fewer)
  · rcases UInt64.le_total x.1 y.1 with lower | higher
    · exact .inl (.inr ⟨same, lower⟩)
    · exact .inr (.inr ⟨same.symm, higher⟩)
  · exact .inl (.inl more)

theorem outranks_of_ranksBefore {x y : Site} (other : x.1 ≠ y.1) (before : ranksBefore x y) :
    x.Outranks y := by
  rcases ranksBefore_iff.1 before with more | ⟨same, lower⟩
  · exact .inl more
  · exact .inr ⟨same, UInt64.lt_of_le_of_ne lower other⟩

def ranked (t : SiteTable) : List Site :=
  t.entries.mergeSort ranksBefore

theorem ranked_perm (t : SiteTable) : t.ranked.Perm t.entries :=
  List.mergeSort_perm ..

theorem top_eq_take (t : SiteTable) (n : Nat) : t.top n = t.ranked.take n := rfl

theorem nodup_addresses (t : SiteTable) : (t.entries.map (·.1)).Nodup := by
  rw [List.nodup_iff_pairwise_ne, List.pairwise_map]
  exact t.ascending.imp UInt64.ne_of_lt

theorem nodup_addresses_ranked (t : SiteTable) : (t.ranked.map (·.1)).Nodup :=
  (t.ranked_perm.map (·.1)).nodup_iff.2 t.nodup_addresses

theorem pairwise_ranked (t : SiteTable) : t.ranked.Pairwise Site.Outranks := by
  have sorted : t.ranked.Pairwise (ranksBefore · ·) :=
    List.pairwise_mergeSort ranksBefore_trans ranksBefore_total _
  have distinct : t.ranked.Pairwise (·.1 ≠ ·.1) := List.pairwise_map.1 t.nodup_addresses_ranked
  exact (distinct.and sorted).imp fun both => outranks_of_ranksBefore both.1 both.2

theorem ranked_unique {t : SiteTable} {sites : List Site} (perm : sites.Perm t.entries)
    (sorted : sites.Pairwise Site.Outranks) : t.ranked = sites :=
  (t.ranked_perm.trans perm.symm).eq_of_pairwise
    (fun _ _ _ _ first second => absurd second first.asymm) t.pairwise_ranked sorted

theorem mem_entries_of_mem_top {t : SiteTable} {n : Nat} {x : Site} (listed : x ∈ t.top n) :
    x ∈ t.entries :=
  t.ranked_perm.mem_iff.1 (List.mem_of_mem_take listed)

theorem outranks_of_omitted {t : SiteTable} {n : Nat} {x y : Site} (listed : x ∈ t.top n)
    (entry : y ∈ t.entries) (omitted : y ∉ t.top n) : x.Outranks y := by
  have sorted := t.pairwise_ranked
  rw [← List.take_append_drop n t.ranked] at sorted
  have ranked : y ∈ t.ranked.take n ++ t.ranked.drop n := by
    rw [List.take_append_drop]
    exact t.ranked_perm.mem_iff.2 entry
  have later := (List.mem_append.1 ranked).resolve_left omitted
  exact (List.pairwise_append.1 sorted).2.2 x listed y later

/-- The first `n` sites of a ranking are sites of the table with its counters, in strict order and
each in front of all that are left out, and fewer are the first of more. -/
theorem top_ranks_exactly (t : SiteTable) (n : Nat) :
    (t.top n).length = min n t.size ∧
    ((t.top n).map (·.1)).Nodup ∧
    (∀ x ∈ t.top n, t.get? x.1 = some x.2) ∧
    (t.top n).Pairwise Site.Outranks ∧
    (∀ x ∈ t.top n, ∀ y ∈ t.entries, y ∉ t.top n → x.Outranks y ∧ ¬ y.Outranks x) ∧
    ∀ m ≤ n, t.top m = (t.top n).take m := by
  refine ⟨?_, ?_, ?_, ?_, ?_, ?_⟩
  · rw [top_eq_take, List.length_take, t.ranked_perm.length_eq]
    rfl
  · rw [top_eq_take, List.map_take]
    exact t.nodup_addresses_ranked.sublist (List.take_sublist ..)
  · intro x listed
    exact mem_entries_iff.1 (mem_entries_of_mem_top listed)
  · exact t.pairwise_ranked.sublist (List.take_sublist ..)
  · intro x listed y entry omitted
    have first := outranks_of_omitted listed entry omitted
    exact ⟨first, first.asymm⟩
  · intro m within
    rw [top_eq_take, top_eq_take, List.take_take, Nat.min_eq_left within]

theorem top_ranks_exactly_among_ties :
    let t := (((empty.insert 12 ⟨3, 1⟩).insert 8 ⟨9, 2⟩).insert 4 ⟨5, 1⟩).insert 16 ⟨7, 0⟩
    let x : Site := (4, ⟨5, 1⟩)
    let y : Site := (12, ⟨3, 1⟩)
    t.top 2 = [(8, ⟨9, 2⟩), x] ∧ x.Outranks y ∧ t.get? x.1 = some x.2 ∧
      t.top 1 = (t.top 2).take 1 := by
  intro t x y
  have ranked : t.ranked = [(8, ⟨9, 2⟩), x, y, (16, ⟨7, 0⟩)] :=
    ranked_unique (by decide +kernel) (by decide +kernel)
  have top : t.top 2 = [(8, ⟨9, 2⟩), x] := by
    rw [top_eq_take, ranked]
    rfl
  have listed : x ∈ t.top 2 := by
    rw [top]
    decide
  have omitted : y ∉ t.top 2 := by
    rw [top]
    decide
  obtain ⟨-, -, counters, -, maximal, initial⟩ := top_ranks_exactly t 2
  have first := maximal x listed y (by decide +kernel) omitted
  exact ⟨top, first.1, counters x listed, initial 1 (by decide)⟩

end SiteTable

end BranchSim
