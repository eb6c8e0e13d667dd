import BranchSim.Sites
import Mathlib.Algebra.GroupWithZero.Nat
import Mathlib.Data.List.Sort

namespace BranchSim

namespace Site

theorem lookup_cons_eq (a b : Address) (s : SiteStats) (rest : List Site) :
    ((b, s) :: rest).lookup a = if a = b then some s else rest.lookup a := by
  by_cases same : a = b
  · rw [same, List.lookup_cons_self, if_pos rfl]
  · rw [List.lookup_cons, beq_false_of_ne same, if_neg same]

theorem lookup_eq_none_of_lt {pc : Address} {sites : List Site} (below : ∀ x ∈ sites, pc < x.1) :
    sites.lookup pc = none := by
  rw [List.lookup_eq_none_iff]
  intro x member
  have order := below x member
  rw [bne_iff_ne]
  intro same
  rw [same] at order
  exact UInt64.lt_irrefl _ order

theorem lookup_alter (f : SiteStats → SiteStats) (pc a : Address) {sites : List Site}
    (ascending : Ascending sites) :
    (alter f pc sites).lookup a =
      if a = pc then some (f ((sites.lookup pc).getD {})) else sites.lookup a := by
  induction sites with
  | nil => exact lookup_cons_eq ..
  | cons head rest ih =>
      obtain ⟨b, s⟩ := head
      obtain ⟨first, tail⟩ := List.pairwise_cons.1 ascending
      simp only [alter]
      split
      · rename_i below
        have absent : ((b, s) :: rest).lookup pc = none := by
          apply lookup_eq_none_of_lt
          intro x member
          rcases List.mem_cons.1 member with rfl | member
          · exact below
          · exact UInt64.lt_trans below (first x member)
        rw [absent, lookup_cons_eq, Option.getD_none]
      · split
        · rename_i above
          have other : pc ≠ b := by
            intro same
            rw [same] at above
            exact UInt64.lt_irrefl _ above
          rw [lookup_cons_eq, ih tail, lookup_cons_eq, lookup_cons_eq, if_neg other]
          by_cases same : a = b
          · rw [if_pos same, if_neg (same ▸ other.symm), if_pos same]
          · rw [if_neg same, if_neg same]
        · -- The search has stopped at the entry of `pc` itself.
          have same : pc = b := UInt64.le_antisymm (UInt64.not_lt.1 ‹_›) (UInt64.not_lt.1 ‹_›)
          subst same
          rw [lookup_cons_eq, lookup_cons_eq, lookup_cons_eq, if_pos rfl, Option.getD_some]
          by_cases same : a = pc
          · rw [if_pos same, if_pos same]
          · rw [if_neg same, if_neg same, if_neg same]

theorem lookup_eq_some_iff {pc : Address} {s : SiteStats} {sites : List Site}
    (ascending : Ascending sites) : sites.lookup pc = some s ↔ (pc, s) ∈ sites := by
  induction sites with
  | nil => exact ⟨nofun, nofun⟩
  | cons head rest ih =>
      obtain ⟨a, t⟩ := head
      obtain ⟨first, tail⟩ := List.pairwise_cons.1 ascending
      rw [lookup_cons_eq, List.mem_cons, Prod.mk.injEq, ← ih tail]
      by_cases same : pc = a
      · subst same
        rw [if_pos rfl, lookup_eq_none_of_lt first]
        simp [eq_comm]
      · simp [same]

/-- A quantity that a change raises by `d` at any site, and that new sites start with `0` of, is
raised by `d` over all sites. -/
theorem sum_alter {measure : SiteStats → Nat} {f : SiteStats → SiteStats} {d : Nat}
    (zero : measure {} = 0) (raised : ∀ s, measure (f s) = measure s + d) (pc : Address)
    (sites : List Site) :
    ((alter f pc sites).map (measure ·.2)).sum = (sites.map (measure ·.2)).sum + d := by
  induction sites with
  | nil => simp [alter, raised, zero]
  | cons head rest ih =>
      obtain ⟨a, s⟩ := head
      simp only [alter]
      split
      · simp [raised, zero]
        omega
      · split
        · simp [ih]
          omega
        · simp [raised]
          omega

end Site

namespace SiteTable

theorem get?_alter (t : SiteTable) (pc a : Address) (f : SiteStats → SiteStats) :
    (t.alter pc f).get? a = if a = pc then some (f (t.get pc)) else t.get? a :=
  Site.lookup_alter f pc a t.ascending

theorem get_alter (t : SiteTable) (pc a : Address) (f : SiteStats → SiteStats) :
    (t.alter pc f).get a = if a = pc then f (t.get pc) else t.get a := by
  rw [get, get?_alter]
  split
  · rfl
  · rfl

theorem mem_entries_iff {t : SiteTable} {pc : Address} {s : SiteStats} :
    (pc, s) ∈ t.entries ↔ t.get? pc = some s :=
  (Site.lookup_eq_some_iff t.ascending).symm

theorem ext_get? {t u : SiteTable} (same : ∀ pc, t.get? pc = u.get? pc) : t = u := by
  have irreflexive : Std.Irrefl fun x y : Site => x.1 < y.1 :=
    ⟨fun x => UInt64.lt_irrefl x.1⟩
  have antisymmetric : Std.Antisymm fun x y : Site => x.1 < y.1 :=
    ⟨fun x y below above => absurd above (UInt64.lt_asymm below)⟩
  have entries : t.entries = u.entries := by
    apply t.ascending.eq_of_mem_iff u.ascending
    rintro ⟨pc, s⟩
    rw [mem_entries_iff, mem_entries_iff, same pc]
  cases t
  cases u
  congr

theorem alter_alter_comm (t : SiteTable) {f g : SiteStats → SiteStats}
    (comm : ∀ s, f (g s) = g (f s)) (a b : Address) :
    (t.alter a f).alter b g = (t.alter b g).alter a f := by
  apply ext_get?
  intro pc
  rw [get?_alter, get?_alter, get?_alter, get?_alter, get_alter, get_alter]
  by_cases at_a : pc = a
  · subst at_a
    by_cases at_b : pc = b
    · subst at_b
      simp [comm]
    · simp [at_b]
  · by_cases at_b : pc = b
    · subst at_b
      simp [at_a]
    · simp [at_a, at_b]

end SiteTable

end BranchSim
