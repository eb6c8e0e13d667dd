import BranchSim.Proofs.Sites
import BranchSim.Stats
import Mathlib.Data.List.Induction

namespace BranchSim.Stats

def recordAll (s : Stats) (bs : List Fetched) : Stats :=
  bs.foldl record s

@[simp] theorem recordAll_nil (s : Stats) : s.recordAll [] = s := rfl

theorem recordAll_cons (s : Stats) (b : Fetched) (bs : List Fetched) :
    s.recordAll (b :: bs) = (s.record b).recordAll bs := rfl

theorem recordAll_append (s : Stats) (bs cs : List Fetched) :
    s.recordAll (bs ++ cs) = (s.recordAll bs).recordAll cs :=
  List.foldl_append ..

theorem wrong_recordAll (s : Stats) (bs : List Fetched) :
    (s.recordAll bs).wrong = s.wrong + bs.countP (·.wrong) := by
  induction bs generalizing s with
  | nil => rfl
  | cons b bs ih =>
      rw [recordAll_cons, ih, List.countP_cons]
      cases wrong : b.wrong
      · simp [record, wrong]
      · simp [record, wrong]
        omega

theorem correct_recordAll (s : Stats) (bs : List Fetched) :
    (s.recordAll bs).correct = s.correct + bs.countP (!·.wrong) := by
  induction bs generalizing s with
  | nil => rfl
  | cons b bs ih =>
      rw [recordAll_cons, ih, List.countP_cons]
      cases wrong : b.wrong
      · simp [record, wrong]
        omega
      · simp [record, wrong]

theorem lookups_recordAll (s : Stats) (bs : List Fetched) :
    (s.recordAll bs).lookups = s.lookups + bs.length := by
  have total := List.length_eq_countP_add_countP (·.wrong) (l := bs)
  simp only [Bool.not_eq_true, Bool.decide_eq_false] at total
  rw [lookups, lookups, wrong_recordAll, correct_recordAll]
  omega

theorem get_sites_record (s : Stats) (b : Fetched) (pc : Address) :
    (s.record b).sites.get pc =
      if b.event.pc = pc then (s.sites.get pc).count b.wrong else s.sites.get pc := by
  rw [record, SiteTable.get_alter]
  by_cases same : b.event.pc = pc
  · rw [if_pos same.symm, if_pos same, same]
  · rw [if_neg (Ne.symm same), if_neg same]

theorem get_sites_recordAll (s : Stats) (bs : List Fetched) (pc : Address) :
    (s.recordAll bs).sites.get pc =
      { lookups := (s.sites.get pc).lookups + bs.countP (·.event.pc = pc)
        mispredictions :=
          (s.sites.get pc).mispredictions + bs.countP fun b => b.event.pc = pc ∧ b.wrong } := by
  induction bs generalizing s with
  | nil => rfl
  | cons b bs ih =>
      rw [recordAll_cons, ih, get_sites_record, List.countP_cons, List.countP_cons]
      by_cases same : b.event.pc = pc
      · cases b.wrong
        · simp [same, SiteStats.count]
          omega
        · simp [same, SiteStats.count]
          omega
      · simp [same]

theorem get?_sites_recordAll (s : Stats) (bs : List Fetched) (pc : Address) :
    (s.recordAll bs).sites.get? pc =
      if ∃ b ∈ bs, b.event.pc = pc then some ((s.recordAll bs).sites.get pc)
      else s.sites.get? pc := by
  induction bs using List.reverseRecOn with
  | nil => simp
  | append_singleton bs b ih =>
      rw [recordAll_append, recordAll_cons, recordAll_nil, get_sites_record, record,
        SiteTable.get?_alter]
      by_cases same : b.event.pc = pc
      · rw [if_pos same.symm, if_pos same, same, if_pos ⟨b, by simp, same⟩]
      · rw [if_neg (Ne.symm same), if_neg same, ih]
        simp [or_and_right, exists_or, same]

@[simp] theorem divergent_recordAll (s : Stats) (bs : List Fetched) :
    (s.recordAll bs).divergent = s.divergent := by
  induction bs generalizing s with
  | nil => rfl
  | cons b bs ih => exact ih (s.record b)

structure Balanced (s : Stats) : Prop where
  lookups : (s.sites.entries.map (·.2.lookups)).sum = s.lookups
  mispredictions : (s.sites.entries.map (·.2.mispredictions)).sum = s.wrong

theorem balanced_default : Balanced {} :=
  ⟨rfl, rfl⟩

theorem Balanced.record {s : Stats} (balanced : Balanced s) (b : Fetched) :
    Balanced (s.record b) where
  lookups := by
    have counted : ((s.record b).sites.entries.map (·.2.lookups)).sum =
        (s.sites.entries.map (·.2.lookups)).sum + 1 :=
      Site.sum_alter rfl (fun _ => rfl) ..
    rw [counted, balanced.lookups, Stats.lookups, Stats.lookups, Stats.record]
    cases b.wrong
    · simp
      omega
    · simp
      omega
  mispredictions := by
    have counted : ((s.record b).sites.entries.map (·.2.mispredictions)).sum =
        (s.sites.entries.map (·.2.mispredictions)).sum + b.wrong.toNat :=
      Site.sum_alter rfl (fun _ => rfl) ..
    rw [counted, balanced.mispredictions]
    rfl

theorem Balanced.recordAll {s : Stats} (balanced : Balanced s) (bs : List Fetched) :
    Balanced (s.recordAll bs) := by
  induction bs generalizing s with
  | nil => exact balanced
  | cons b bs ih => exact ih (balanced.record b)

theorem record_comm (s : Stats) (b b' : Fetched) :
    (s.record b).record b' = (s.record b').record b := by
  have sites := s.sites.alter_alter_comm (f := (·.count b.wrong)) (g := (·.count b'.wrong))
    (fun t => by simp [SiteStats.count]; omega) b.event.pc b'.event.pc
  simp only [record, Stats.mk.injEq, sites, and_true]
  exact ⟨Nat.add_right_comm .., Nat.add_right_comm ..⟩

theorem recordAll_perm {bs cs : List Fetched} (perm : bs.Perm cs) (s : Stats) :
    s.recordAll bs = s.recordAll cs :=
  perm.foldl_eq' (fun b _ b' _ s => s.record_comm b b') s

theorem wrong_eq_decide (b : Fetched) : b.wrong = decide (b.predicted ≠ b.event.taken) := by
  rw [decide_not]
  rfl

theorem mem_sites_recordAll (bs : List Fetched) (pc : Address) (counts : SiteStats) :
    (pc, counts) ∈ (recordAll {} bs).sites.entries ↔
      (∃ b ∈ bs, b.event.pc = pc) ∧
      counts.lookups = bs.countP (fun b => b.event.pc = pc) ∧
      counts.mispredictions = bs.countP fun b => b.event.pc = pc ∧ b.wrong := by
  obtain ⟨lookups, mispredictions⟩ := counts
  have zero : ({} : Stats).sites.get pc = {} := rfl
  have none : ({} : Stats).sites.get? pc = none := rfl
  rw [SiteTable.mem_entries_iff, get?_sites_recordAll, get_sites_recordAll, zero, none]
  split
  · rename_i recorded
    rw [Option.some.injEq, SiteStats.mk.injEq, Nat.zero_add, Nat.zero_add]
    exact ⟨fun same => ⟨recorded, same.1.symm, same.2.symm⟩,
      fun both => ⟨both.2.1.symm, both.2.2.symm⟩⟩
  · rename_i absent
    exact ⟨nofun, fun both => absurd both.1 absent⟩

/-- New statistics after any list of records. The sites are those of the records, each with its own
counts, and any other order of the records gives the same statistics. -/
theorem records_counted (bs : List Fetched) :
    let s := recordAll {} bs
    s.correct = bs.countP (fun b => b.predicted = b.event.taken) ∧
    s.wrong = bs.countP (fun b => b.predicted ≠ b.event.taken) ∧
    s.divergent = 0 ∧
    (∀ pc counts, (pc, counts) ∈ s.sites.entries ↔
      (∃ b ∈ bs, b.event.pc = pc) ∧
      counts.lookups = bs.countP (fun b => b.event.pc = pc) ∧
      counts.mispredictions =
        bs.countP fun b => b.event.pc = pc ∧ b.predicted ≠ b.event.taken) ∧
    (∀ x ∈ s.sites.entries, x.2.mispredictions ≤ x.2.lookups) ∧
    (s.sites.entries.map (·.2.lookups)).sum = s.lookups ∧
    (s.sites.entries.map (·.2.mispredictions)).sum = s.wrong ∧
    ∀ cs, bs.Perm cs → recordAll {} cs = s := by
  intro s
  have balanced : Balanced s := balanced_default.recordAll bs
  refine ⟨?_, ?_, divergent_recordAll {} bs, ?_, ?_, balanced.lookups, balanced.mispredictions, ?_⟩
  · have correct := correct_recordAll {} bs
    simpa [wrong_eq_decide] using correct
  · have wrong := wrong_recordAll {} bs
    simpa [wrong_eq_decide] using wrong
  · intro pc counts
    have entry := mem_sites_recordAll bs pc counts
    simpa [wrong_eq_decide] using entry
  · rintro ⟨pc, counts⟩ member
    obtain ⟨-, lookups, mispredictions⟩ := (mem_sites_recordAll bs pc counts).1 member
    rw [lookups, mispredictions]
    apply List.countP_mono_left
    intro b _ both
    exact decide_eq_true (of_decide_eq_true both).1
  · intro cs perm
    exact (recordAll_perm perm {}).symm

theorem records_counted_in_another_order :
    let bs : List Fetched := [⟨⟨8, true⟩, true⟩, ⟨⟨4, true⟩, false⟩, ⟨⟨8, false⟩, true⟩]
    let cs : List Fetched := [⟨⟨4, true⟩, false⟩, ⟨⟨8, false⟩, true⟩, ⟨⟨8, true⟩, true⟩]
    bs.Perm cs ∧ recordAll {} cs = recordAll {} bs ∧ (recordAll {} bs).wrong = 2 ∧
      (recordAll {} bs).sites.entries = [(4, ⟨1, 1⟩), (8, ⟨2, 1⟩)] := by
  intro bs cs
  have perm : bs.Perm cs := by decide
  obtain ⟨-, wrong, -, -, -, -, -, reordered⟩ := records_counted bs
  exact ⟨perm, reordered cs perm, wrong, rfl⟩

end BranchSim.Stats
