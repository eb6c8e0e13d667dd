import BranchSim.Proofs.GShare.Table
import BranchSim.Proofs.Simulator.Lockstep

/-!
# What an index reads

An index reads as many bits of the address and of the history as the table is wide. Two predictors
that differ only in what no index reads stay in step, and so do two streams whose addresses differ
by one exclusive or throughout: the counters of the second stand where that moves them.
-/

namespace BranchSim.GShare

variable {c c' : GShareConfig} {g g' : GShare} {es fs : List Event} {a b : Address} {d : Nat}

structure SameReach (c c' : GShareConfig) : Prop where
  tableBits : c.tableBits = c'.tableBits
  visible : ∀ i < c.tableBits.toNat, i < c.historyBits.toNat ↔ i < c'.historyBits.toNat
  fits : c.historyBits.toNat ≤ History.maxWidth
  fits' : c'.historyBits.toNat ≤ History.maxWidth

/-- The second table is the first with every place moved by the exclusive or with `d`. -/
structure Relabelled (d : Nat) (g g' : GShare) : Prop where
  reach : SameReach g.config g'.config
  history : ∀ i < g.config.tableBits.toNat, g.history.outcome i = g'.history.outcome i
  counters : ∀ j < g.config.tableSize, g.counters[j]? = g'.counters[j ^^^ d]?

def offset (c : GShareConfig) (a b : Address) : Nat :=
  (a.word ^^^ b.word).toNat % c.tableSize

theorem testBit_offset (c : GShareConfig) (a b : Address) (i : Nat) :
    (offset c a b).testBit i =
      (decide (i < c.tableBits.toNat) && (a.word.toNat.testBit i ^^ b.word.toNat.testBit i)) := by
  rw [offset, c.tableSize_eq, Nat.testBit_mod_two_pow, UInt64.toNat_xor, Nat.testBit_xor]

namespace Relabelled

theorem index (relabelled : Relabelled d g g') (apart : offset g.config a b = d) :
    g'.index b = g.index a ^^^ d := by
  have cancel : ∀ x y h : Bool, (y ^^ h) = ((x ^^ h) ^^ (x ^^ y)) := by decide
  subst apart
  apply Nat.eq_of_testBit_eq
  intro i
  rw [Nat.testBit_xor, testBit_index, testBit_index, testBit_offset,
    ← relabelled.reach.tableBits]
  by_cases inside : i < g.config.tableBits.toNat
  · rw [relabelled.history i inside]
    simp only [inside, decide_true, Bool.true_and]
    exact cancel ..
  · simp [inside]

theorem predict (relabelled : Relabelled d g g') (apart : offset g.config a b = d) :
    g.predict a = g'.predict b := by
  rw [GShare.predict, GShare.predict, counter, counter, relabelled.index apart,
    relabelled.counters _ (g.index_lt a)]

theorem train {e f : Event} (relabelled : Relabelled d g g')
    (apart : offset g.config e.pc f.pc = d) (taken : e.taken = f.taken) :
    Relabelled d (g.train e) (g'.train f) where
  reach := relabelled.reach
  history := by
    intro i inside
    change (g.history.push g.config.historyBits.toNat e.taken).outcome i =
      (g'.history.push g'.config.historyBits.toNat f.taken).outcome i
    rw [History.outcome_push _ relabelled.reach.fits, History.outcome_push _ relabelled.reach.fits',
      taken, decide_eq_decide.2 (relabelled.reach.visible i inside)]
    cases i with
    | zero => rfl
    | succ i =>
        have older := relabelled.history i (Nat.lt_of_succ_lt inside)
        simp [older]
  counters := by
    intro j inside
    -- The two branches select `j` and the place it has moved to together.
    rw [counters_train, counters_train, relabelled.index apart, relabelled.counters j inside, taken]
    simp only [Nat.xor_left_inj]

theorem trainAll (relabelled : Relabelled d g g') (outcomes : SameOutcomes es fs)
    (apart : ∀ x ∈ es.zip fs, offset g.config x.1.pc x.2.pc = d) :
    Relabelled d (g.trainAll es) (g'.trainAll fs) := by
  induction outcomes generalizing g g' with
  | nil => exact relabelled
  | @cons e f es fs taken _ ih =>
      obtain ⟨here, later⟩ := List.forall_mem_cons.1 apart
      exact ih (relabelled.train here taken) later

theorem trainAll_take (relabelled : Relabelled d g g') (outcomes : SameOutcomes es fs)
    (apart : ∀ x ∈ es.zip fs, offset g.config x.1.pc x.2.pc = d) (k : Nat) :
    Relabelled d (g.trainAll (es.take k)) (g'.trainAll (fs.take k)) := by
  apply relabelled.trainAll (List.forall₂_take k outcomes)
  intro x member
  exact apart x (zip_take_subset es fs k member)

theorem lockstep (relabelled : Relabelled d g g') (outcomes : SameOutcomes es fs)
    (apart : ∀ x ∈ es.zip fs, offset g.config x.1.pc x.2.pc = d) :
    Predictor.Lockstep (.gshare g) (.gshare g') es fs where
  outcomes := outcomes
  predictions := by
    intro k x member
    rw [trainAll_gshare, trainAll_gshare]
    apply (relabelled.trainAll_take outcomes apart k).predict
    rw [config_trainAll]
    exact apart x member

theorem counters_eq (same : Relabelled 0 g g') (size : g.counters.size = g.config.tableSize)
    (size' : g'.counters.size = g.config.tableSize) : g.counters = g'.counters := by
  apply Array.ext (size.trans size'.symm)
  intro j inside inside'
  have counter := same.counters j (size ▸ inside)
  rw [Nat.xor_zero, Array.getElem?_eq_getElem inside, Array.getElem?_eq_getElem inside'] at counter
  exact Option.some.inj counter

end Relabelled

theorem relabelled_fresh (reach : SameReach c c') (below : d < c.tableSize) :
    Relabelled d (fresh c) (fresh c') where
  reach := reach
  history := fun _ _ => rfl
  counters := by
    intro j inside
    have inside : j < c.tableSize := inside
    have moved : j ^^^ d < c'.tableSize := by
      rw [c.tableSize_eq] at inside below
      rw [c'.tableSize_eq, ← reach.tableBits]
      exact Nat.xor_lt_two_pow inside below
    rw [counters_fresh c inside, counters_fresh c' moved]

theorem sameReach_refl (valid : c.validate = .ok ()) : SameReach c c := by
  obtain ⟨-, -, fits⟩ := GShareConfig.validate_eq_ok_iff.1 valid
  exact ⟨rfl, fun _ _ => Iff.rfl, fits, fits⟩

theorem toNat_and_lowMask (valid : c.validate = .ok ()) (w : UInt64) :
    (w &&& lowMask c.tableBits.toNat).toNat = w.toNat % c.tableSize := by
  obtain ⟨⟨-, table⟩, -⟩ := GShareConfig.validate_eq_ok_iff.1 valid
  have fits : c.tableBits.toNat ≤ History.maxWidth := table.trans (by decide)
  rw [UInt64.toNat_and, toNat_lowMask fits, Nat.and_two_pow_sub_one_eq_mod, c.tableSize_eq]

/-- Addresses that differ by the same exclusive or throughout, as far as the table is wide, are
predicted alike. -/
theorem predictions_invariant_under_xor (c : GShareConfig) (valid : c.validate = .ok ()) :
    ∃ g, ofConfig c = .ok g ∧ ∀ (shift : UInt64) (es fs : List Event),
      let mask := lowMask c.tableBits.toNat
      let d := (shift &&& mask).toNat
      SameOutcomes es fs →
      (∀ x ∈ es.zip fs, (x.1.pc.word ^^^ x.2.pc.word) &&& mask = shift &&& mask) →
      (∀ k, let q := g.trainAll (es.take k)
        let q' := g.trainAll (fs.take k)
        (∀ x ∈ es.zip fs, q.predict x.1.pc = q'.predict x.2.pc) ∧
        ∀ j < 2 ^ c.tableBits.toNat, ∃ v, q.counters[j]? = some v ∧ q'.counters[j ^^^ d]? = some v) ∧
      ∀ general, Stats.SameCounts
        ((Simulator.ofPredictor (.gshare g) general).run es).value.stats
        ((Simulator.ofPredictor (.gshare g) general).run fs).value.stats := by
  refine ⟨fresh c, ofConfig_of_validate valid, ?_⟩
  intro shift es fs mask d outcomes shifted
  have below : d < c.tableSize := by
    change (shift &&& mask).toNat < c.tableSize
    rw [toNat_and_lowMask valid, c.tableSize_eq]
    exact Nat.mod_lt _ (Nat.two_pow_pos _)
  have apart : ∀ x ∈ es.zip fs, offset c x.1.pc x.2.pc = d := by
    intro x member
    rw [offset, ← toNat_and_lowMask valid, shifted x member]
  have start := relabelled_fresh (sameReach_refl valid) below
  have lockstep := start.lockstep outcomes apart
  refine ⟨fun k => ⟨?_, ?_⟩, lockstep.sameCounts⟩
  · intro x member
    have predicted := lockstep.predictions k x member
    rw [trainAll_gshare, trainAll_gshare] at predicted
    exact predicted
  · intro j inside
    rw [← c.tableSize_eq] at inside
    have counters := (start.trainAll_take outcomes apart k).counters j
    rw [config_trainAll] at counters
    have at_j := counters_trainAll_fresh c (es.take k) inside
    exact ⟨_, at_j, (counters inside).symm.trans at_j⟩

theorem predictions_invariant_under_xor_of_ignored_bits :
    let c : GShareConfig := ⟨2, 3⟩
    let mask := lowMask c.tableBits.toNat
    let es : List Event := [⟨4, true⟩, ⟨0, true⟩, ⟨12, true⟩, ⟨4, false⟩, ⟨12, true⟩, ⟨0, false⟩]
    let fs : List Event := [⟨8, true⟩, ⟨13, true⟩, ⟨64, true⟩, ⟨10, false⟩, ⟨1, true⟩,
      ⟨0x800000000000000c, false⟩]
    c.validate = .ok () ∧ SameOutcomes es fs ∧
      (∀ x ∈ es.zip fs, (x.1.pc.word ^^^ x.2.pc.word) &&& mask = 7 &&& mask) ∧
      ((fresh c).trainAll (fs.take 6)).counters[1]? = some .strongNotTaken ∧
      ((Simulator.ofPredictor (.gshare (fresh c)) ⟨false, 1⟩).run fs).value.stats.divergent = 2 := by
  intro c mask es fs
  have valid : c.validate = .ok () := GShareConfig.validate_eq_ok_iff.2 (by decide)
  have outcomes : SameOutcomes es fs :=
    .cons rfl (.cons rfl (.cons rfl (.cons rfl (.cons rfl (.cons rfl .nil)))))
  have shifted : ∀ x ∈ es.zip fs, (x.1.pc.word ^^^ x.2.pc.word) &&& mask = 7 &&& mask := by decide
  obtain ⟨g, built, moved⟩ := predictions_invariant_under_xor c valid
  obtain rfl : fresh c = g := Except.ok.inj ((ofConfig_of_validate valid).symm.trans built)
  obtain ⟨states, counts⟩ := moved 7 es fs outcomes shifted
  obtain ⟨v, at_2, moved_2⟩ := (states 6).2 2 (by decide)
  have first : ((fresh c).trainAll (es.take 6)).counters[2]? = some .strongNotTaken := by
    decide +kernel
  have place : 2 ^^^ (7 &&& lowMask c.tableBits.toNat).toNat = 1 := by decide
  rw [place] at moved_2
  refine ⟨valid, outcomes, shifted, ?_, (counts ⟨false, 1⟩).divergent.symm.trans ?_⟩
  · rw [moved_2, ← at_2, first]
  · decide +kernel

/-- Outcomes above the width of the table change no counter, no prediction and no statistics. -/
theorem history_above_table_ignored {t h h' : UInt64} (table : 1 ≤ t.toNat ∧ t.toNat ≤ 24)
    (wide : t ≤ h ∧ h ≤ 64) (wide' : t ≤ h' ∧ h' ≤ 64) :
    ∃ g g', ofConfig ⟨t, h⟩ = .ok g ∧ ofConfig ⟨t, h'⟩ = .ok g' ∧ ∀ events : List Event,
      (g.trainAll events).counters = (g'.trainAll events).counters ∧
      (∀ pc, (g.trainAll events).predict pc = (g'.trainAll events).predict pc) ∧
      ∀ general, ((Simulator.ofPredictor (.gshare g) general).run events).value.stats =
        ((Simulator.ofPredictor (.gshare g') general).run events).value.stats := by
  rw [UInt64.le_iff_toNat_le, UInt64.le_iff_toNat_le] at wide wide'
  change _ ∧ h.toNat ≤ History.maxWidth at wide
  change _ ∧ h'.toNat ≤ History.maxWidth at wide'
  have valid : (⟨t, h⟩ : GShareConfig).validate = .ok () :=
    GShareConfig.validate_eq_ok_iff.2 ⟨table, table.1.trans wide.1, wide.2⟩
  have valid' : (⟨t, h'⟩ : GShareConfig).validate = .ok () :=
    GShareConfig.validate_eq_ok_iff.2 ⟨table, table.1.trans wide'.1, wide'.2⟩
  have reach : SameReach ⟨t, h⟩ ⟨t, h'⟩ := by
    refine ⟨rfl, fun i inside => ?_, wide.2, wide'.2⟩
    exact iff_of_true (inside.trans_le wide.1) (inside.trans_le wide'.1)
  refine ⟨fresh ⟨t, h⟩, fresh ⟨t, h'⟩, ofConfig_of_validate valid, ofConfig_of_validate valid', ?_⟩
  intro events
  -- Nothing moves: both streams are the same one, and so the places are.
  have start := relabelled_fresh reach (by rw [GShareConfig.tableSize_eq]; exact Nat.two_pow_pos _)
  have same (a : Address) : offset ⟨t, h⟩ a a = 0 := by
    rw [offset, UInt64.xor_self]
    exact Nat.zero_mod _
  have apart : ∀ x ∈ events.zip events, offset ⟨t, h⟩ x.1.pc x.2.pc = 0 := by
    intro x member
    obtain ⟨e, -, rfl⟩ := exists_of_mem_zip_self member
    exact same e.pc
  have trained := start.trainAll (sameOutcomes_refl events) apart
  refine ⟨?_, fun pc => ?_, (start.lockstep (sameOutcomes_refl events) apart).stats_eq⟩
  · apply trained.counters_eq
    · rw [size_trainAll_fresh, config_trainAll]
      rfl
    · rw [size_trainAll_fresh, config_trainAll]
      rfl
  · apply trained.predict
    rw [config_trainAll]
    exact same pc

theorem history_above_table_ignored_at_full_width :
    let events : List Event := [⟨4, true⟩, ⟨0, true⟩, ⟨12, true⟩, ⟨4, false⟩, ⟨12, true⟩,
      ⟨0, false⟩, ⟨4, true⟩, ⟨4, true⟩, ⟨4, true⟩]
    let narrow := fresh ⟨2, 2⟩
    let wide := fresh ⟨2, 64⟩
    (1 ≤ (2 : UInt64).toNat ∧ (2 : UInt64).toNat ≤ 24) ∧ ((2 : UInt64) ≤ 2 ∧ (2 : UInt64) ≤ 64) ∧
      ((2 : UInt64) ≤ 64 ∧ (64 : UInt64) ≤ 64) ∧
      (narrow.trainAll events).history = ⟨3⟩ ∧ (wide.trainAll events).history = ⟨471⟩ ∧
      (wide.trainAll events).counters = #[.strongTaken, .weakTaken, .weakNotTaken, .weakTaken] ∧
      ((Simulator.ofPredictor (.gshare wide) ⟨true, 1⟩).run events).value.stats.divergent = 5 := by
  intro events narrow wide
  have table : 1 ≤ (2 : UInt64).toNat ∧ (2 : UInt64).toNat ≤ 24 := by decide
  have fits : (2 : UInt64) ≤ 2 ∧ (2 : UInt64) ≤ 64 := by decide
  have fits' : (2 : UInt64) ≤ 64 ∧ (64 : UInt64) ≤ 64 := by decide
  obtain ⟨g, g', built, built', same⟩ := history_above_table_ignored table fits fits'
  obtain rfl : narrow = g := Except.ok.inj built
  obtain rfl : wide = g' := Except.ok.inj built'
  obtain ⟨counters, -, stats⟩ := same events
  refine ⟨table, fits, fits', ?_, ?_, counters.symm.trans ?_,
    (congrArg Stats.divergent (stats ⟨true, 1⟩)).symm.trans ?_⟩
  all_goals decide +kernel

end BranchSim.GShare
