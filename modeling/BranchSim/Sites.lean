import BranchSim.Event

/-!
# Site tables

Prediction counters for each branch address, as a list in ascending order of addresses, so that two
tables with the same entries are equal.
-/

namespace BranchSim

structure SiteStats where
  lookups : Nat := 0
  mispredictions : Nat := 0
deriving DecidableEq, Repr, Inhabited

def SiteStats.count (s : SiteStats) (wrong : Bool) : SiteStats where
  lookups := s.lookups + 1
  mispredictions := s.mispredictions + wrong.toNat

abbrev Site := Address × SiteStats

namespace Site

/-- The entries with `f` applied to the counters of `pc`, which start from zero if it is new. -/
def alter (f : SiteStats → SiteStats) (pc : Address) : List Site → List Site
  | [] => [(pc, f {})]
  | (a, s) :: rest =>
    if pc < a then (pc, f {}) :: (a, s) :: rest
    else if a < pc then (a, s) :: alter f pc rest
    else (a, f s) :: rest

abbrev Ascending (sites : List Site) : Prop :=
  sites.Pairwise (·.1 < ·.1)

theorem mem_alter {f : SiteStats → SiteStats} {pc : Address} {sites : List Site} {x : Site}
    (h : x ∈ alter f pc sites) : x.1 = pc ∨ x ∈ sites := by
  induction sites with
  | nil => simp [alter] at h; simp [h]
  | cons head rest ih =>
    obtain ⟨a, s⟩ := head
    simp only [alter] at h
    split at h
    · rcases List.mem_cons.1 h with rfl | h
      · exact .inl rfl
      · exact .inr h
    · split at h
      · rcases List.mem_cons.1 h with rfl | h
        · exact .inr (List.mem_cons_self ..)
        · exact (ih h).imp_right (List.mem_cons_of_mem _)
      · rcases List.mem_cons.1 h with rfl | h
        · exact .inl (UInt64.le_antisymm (UInt64.not_lt.1 ‹_›) (UInt64.not_lt.1 ‹_›))
        · exact .inr (List.mem_cons_of_mem _ h)

theorem ascending_alter {f : SiteStats → SiteStats} {pc : Address} {sites : List Site}
    (h : Ascending sites) : Ascending (alter f pc sites) := by
  induction sites with
  | nil => simp [alter]
  | cons head rest ih =>
    obtain ⟨a, s⟩ := head
    obtain ⟨first, tail⟩ := List.pairwise_cons.1 h
    simp only [alter]
    split
    · rename_i below
      refine List.pairwise_cons.2 ⟨fun x hx => ?_, h⟩
      rcases List.mem_cons.1 hx with rfl | hx
      · exact below
      · exact UInt64.lt_trans below (first x hx)
    · split
      · rename_i above
        refine List.pairwise_cons.2 ⟨fun x hx => ?_, ih tail⟩
        rcases mem_alter hx with hx | hx
        · exact hx ▸ above
        · exact first x hx
      · exact List.pairwise_cons.2 ⟨first, tail⟩

end Site

structure SiteTable where
  entries : List Site
  ascending : Site.Ascending entries
deriving DecidableEq

namespace SiteTable

def empty : SiteTable := ⟨[], .nil⟩

instance : Inhabited SiteTable := ⟨empty⟩

def size (t : SiteTable) : Nat := t.entries.length

def get? (t : SiteTable) (pc : Address) : Option SiteStats :=
  t.entries.lookup pc

def get (t : SiteTable) (pc : Address) : SiteStats :=
  (t.get? pc).getD {}

def alter (t : SiteTable) (pc : Address) (f : SiteStats → SiteStats) : SiteTable :=
  ⟨Site.alter f pc t.entries, Site.ascending_alter t.ascending⟩

def insert (t : SiteTable) (pc : Address) (s : SiteStats) : SiteTable :=
  t.alter pc fun _ => s

def ranksBefore (x y : Site) : Bool :=
  y.2.mispredictions < x.2.mispredictions ||
    (y.2.mispredictions == x.2.mispredictions && x.1 ≤ y.1)

def top (t : SiteTable) (n : Nat) : List Site :=
  (t.entries.mergeSort ranksBefore).take n

end SiteTable

end BranchSim
