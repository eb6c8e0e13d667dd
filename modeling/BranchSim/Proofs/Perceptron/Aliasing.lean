import BranchSim.Proofs.Perceptron.Layout
import BranchSim.Proofs.Simulator.Lockstep

/-!
# Aliasing

Of an address only the row that it selects matters, and of the rows only which branches share one.
`Aligned` relates two tables of different sizes through the branches of two streams: the rows that a
pair of branches selects hold the same weights, whatever their places in the tables.
-/

namespace BranchSim.Perceptron

variable {c : PerceptronConfig} {p q : Perceptron} {es fs : List Event}
  {pairs : List (Event × Event)} {x : Event × Event}

/-- Branches of the first stream share a row where those of the second do. -/
structure SameAliasing (p q : Perceptron) (es fs : List Event) : Prop where
  outcomes : SameOutcomes es fs
  rows : ∀ x ∈ es.zip fs, ∀ y ∈ es.zip fs,
    p.index x.1.pc = p.index y.1.pc ↔ q.index x.2.pc = q.index y.2.pc

structure Alike (p q : Perceptron) (es fs : List Event) : Prop where
  outputs : ∀ k, ∀ x ∈ es.zip fs,
    (p.trainAll (es.take k)).output x.1.pc = (q.trainAll (fs.take k)).output x.2.pc
  counts : ∀ g, Stats.SameCounts
    ((Simulator.ofPredictor (.perceptron p) g).run es).value.stats
    ((Simulator.ofPredictor (.perceptron q) g).run fs).value.stats

theorem trainAll_perceptron (p : Perceptron) (es : List Event) :
    (Predictor.perceptron p).trainAll es = .perceptron (p.trainAll es) := by
  induction es generalizing p with
  | nil => rfl
  | cons e es ih => exact ih (p.train e)

structure Aligned (pairs : List (Event × Event)) (p q : Perceptron) : Prop where
  config : ∃ n, q.config = { p.config with numPerceptrons := n }
  history : p.history = q.history
  shared : ∀ x ∈ pairs, ∀ y ∈ pairs,
    p.index x.1.pc = p.index y.1.pc ↔ q.index x.2.pc = q.index y.2.pc
  rows : ∀ x ∈ pairs, p.row x.1.pc = q.row x.2.pc

namespace Aligned

theorem inputs (aligned : Aligned pairs p q) : p.inputs = q.inputs := by
  obtain ⟨n, same⟩ := aligned.config
  rw [Perceptron.inputs, Perceptron.inputs, aligned.history, same]

theorem output (aligned : Aligned pairs p q) (member : x ∈ pairs) :
    p.output x.1.pc = q.output x.2.pc := by
  rw [Perceptron.output, Perceptron.output, aligned.rows x member, aligned.inputs]

theorem adjusts (aligned : Aligned pairs p q) (member : x ∈ pairs) (taken : x.1.taken = x.2.taken) :
    p.adjusts x.1 = q.adjusts x.2 := by
  obtain ⟨n, same⟩ := aligned.config
  rw [Perceptron.adjusts, Perceptron.adjusts, predict, predict, aligned.output member, taken, same]

theorem adjust (aligned : Aligned pairs p q) :
    Perceptron.adjust p.config = Perceptron.adjust q.config := by
  obtain ⟨n, same⟩ := aligned.config
  rw [same]
  rfl

theorem train (aligned : Aligned pairs p q) (member : x ∈ pairs) (taken : x.1.taken = x.2.taken) :
    Aligned pairs (p.train x.1) (q.train x.2) where
  config := aligned.config
  history := by
    obtain ⟨n, same⟩ := aligned.config
    rw [Perceptron.train, Perceptron.train, aligned.history, taken, same]
  shared := aligned.shared
  rows := by
    intro y inside
    -- The trained branch writes to the row of `y` in both tables or in neither.
    rw [row_train, row_train, aligned.rows y inside, aligned.adjusts member taken, aligned.adjust,
      aligned.inputs, taken]
    simp only [aligned.shared x member y inside]

theorem trainAll (aligned : Aligned pairs p q) (outcomes : SameOutcomes es fs)
    (inside : es.zip fs ⊆ pairs) : Aligned pairs (p.trainAll es) (q.trainAll fs) := by
  induction outcomes generalizing p q with
  | nil => exact aligned
  | @cons e f es fs taken _ ih =>
      obtain ⟨member, inside⟩ := List.cons_subset.1 inside
      exact ih (aligned.train (x := (e, f)) member taken) inside

end Aligned

theorem row_fresh (valid : c.validate = .ok ()) (pc : Address) :
    (fresh c).row pc = List.replicate (c.historyLength.toNat + 1) 0 := by
  obtain ⟨power, -⟩ := PerceptronConfig.validate_eq_ok_iff.1 valid
  rw [row, weights?_fresh c ((kept_fresh c).index_lt power pc), Option.getD_some]

theorem aligned_fresh {n : UInt64} (valid : c.validate = .ok ())
    (valid' : { c with numPerceptrons := n }.validate = .ok ())
    (same : SameAliasing (fresh c) (fresh { c with numPerceptrons := n }) es fs) :
    Aligned (es.zip fs) (fresh c) (fresh { c with numPerceptrons := n }) where
  config := ⟨n, rfl⟩
  history := rfl
  shared := same.rows
  rows := by
    intro x _
    rw [row_fresh valid, row_fresh valid']

theorem alike_of_aligned (aligned : Aligned (es.zip fs) p q) (outcomes : SameOutcomes es fs) :
    Alike p q es fs := by
  have outputs : ∀ k, ∀ x ∈ es.zip fs,
      (p.trainAll (es.take k)).output x.1.pc = (q.trainAll (fs.take k)).output x.2.pc := by
    intro k x member
    exact (aligned.trainAll (List.forall₂_take k outcomes) (zip_take_subset es fs k)).output member
  have lockstep : Predictor.Lockstep (.perceptron p) (.perceptron q) es fs := by
    refine ⟨outcomes, ?_⟩
    intro k x member
    rw [trainAll_perceptron, trainAll_perceptron]
    change Perceptron.predict _ _ = Perceptron.predict _ _
    rw [predict, predict, outputs k x member]
  exact ⟨outputs, lockstep.sameCounts⟩

def SameField (c : PerceptronConfig) (a b : Address) : Prop :=
  ∀ i, 2 ≤ i → i < c.numPerceptrons.toNat.log2 + 2 → a.toNat.testBit i = b.toNat.testBit i

theorem index_eq_of_sameField (config : p.config = c)
    (power : c.numPerceptrons.toNat.isPowerOfTwo) {a b : Address} (same : SameField c a b) :
    p.index a = p.index b := by
  obtain ⟨k, rows⟩ := power
  rw [SameField, rows, Nat.log2_two_pow] at same
  rw [index, index, config, rows, a.toNat_word, b.toNat_word]
  have above (pc : Address) (i : Nat) : (pc.toNat / 4).testBit i = pc.toNat.testBit (i + 2) :=
    Nat.testBit_div_two_pow (n := 2) pc.toNat i
  apply Nat.eq_of_testBit_eq
  intro i
  rw [Nat.testBit_mod_two_pow, Nat.testBit_mod_two_pow, above, above]
  by_cases inside : i < k
  · rw [same (i + 2) (Nat.le_add_left 2 i) (Nat.add_lt_add_right inside 2)]
  · simp [inside]

theorem output_congr {a b : Address} (same : p.index a = p.index b) :
    p.output a = p.output b := by
  rw [output, output, row, row, same]

theorem train_congr {e f : Event} (same : p.index e.pc = p.index f.pc)
    (taken : e.taken = f.taken) : p.train e = p.train f := by
  have adjusts : p.adjusts e = p.adjusts f := by
    rw [adjusts, adjusts, predict, predict, output_congr same, taken]
  rw [train, train, adjusts, same, taken]

theorem trainAll_congr (config : p.config = c) (power : c.numPerceptrons.toNat.isPowerOfTwo)
    (same : List.Forall₂ (fun e f => e.taken = f.taken ∧ SameField c e.pc f.pc) es fs) :
    p.trainAll es = p.trainAll fs := by
  induction same generalizing p with
  | nil => rfl
  | @cons e f es fs head _ ih =>
      obtain ⟨taken, field⟩ := head
      have first : p.train e = p.train f :=
        train_congr (index_eq_of_sameField config power field) taken
      change (p.train e).trainAll es = (p.train f).trainAll fs
      rw [← first]
      exact ih (p := p.train e) config

theorem numPerceptrons_dvd {n m : UInt64} (power : n.toNat.isPowerOfTwo)
    (power' : m.toNat.isPowerOfTwo) (larger : n ≤ m) : n.toNat ∣ m.toNat := by
  obtain ⟨k, small⟩ := power
  obtain ⟨l, large⟩ := power'
  rw [UInt64.le_iff_toNat_le, small, large] at larger
  rw [small, large]
  exact Nat.pow_dvd_pow 2 ((Nat.pow_le_pow_iff_right Nat.one_lt_two).1 larger)

theorem index_eq_of_larger {a b : Address}
    (divides : p.config.numPerceptrons.toNat ∣ q.config.numPerceptrons.toNat)
    (same : q.index a = q.index b) : p.index a = p.index b := by
  unfold index at same ⊢
  rw [← Nat.mod_mod_of_dvd _ divides, same, Nat.mod_mod_of_dvd _ divides]

theorem sameAliasing_of_larger
    (divides : p.config.numPerceptrons.toNat ∣ q.config.numPerceptrons.toNat)
    (kept : ∀ e ∈ es, ∀ f ∈ es, p.index e.pc = p.index f.pc → q.index e.pc = q.index f.pc) :
    SameAliasing p q es es where
  outcomes := sameOutcomes_refl es
  rows := by
    intro x x_mem y y_mem
    obtain ⟨e, e_mem, rfl⟩ := exists_of_mem_zip_self x_mem
    obtain ⟨f, f_mem, rfl⟩ := exists_of_mem_zip_self y_mem
    exact ⟨kept e e_mem f f_mem, index_eq_of_larger divides⟩

theorem only_aliasing_matters (c : PerceptronConfig) (rows : UInt64)
    (valid : c.validate = .ok ()) (valid' : { c with numPerceptrons := rows }.validate = .ok ()) :
    ∃ p q, ofConfig c = .ok p ∧ ofConfig { c with numPerceptrons := rows } = .ok q ∧
      (∀ es fs, SameAliasing p q es fs → Alike p q es fs) ∧
      (∀ es fs, List.Forall₂ (fun e f => e.taken = f.taken ∧ SameField c e.pc f.pc) es fs →
        p.trainAll es = p.trainAll fs ∧
        ∀ a b, SameField c a b → (p.trainAll es).output a = (p.trainAll fs).output b) ∧
      (c.numPerceptrons ≤ rows → ∀ es : List Event,
        (∀ e ∈ es, ∀ f ∈ es, p.index e.pc = p.index f.pc → q.index e.pc = q.index f.pc) →
        Alike p q es es) := by
  obtain ⟨power, -⟩ := PerceptronConfig.validate_eq_ok_iff.1 valid
  obtain ⟨power', -⟩ := PerceptronConfig.validate_eq_ok_iff.1 valid'
  have alike : ∀ es fs, SameAliasing (fresh c) (fresh { c with numPerceptrons := rows }) es fs →
      Alike (fresh c) (fresh { c with numPerceptrons := rows }) es fs :=
    fun es fs same => alike_of_aligned (aligned_fresh valid valid' same) same.outcomes
  refine ⟨fresh c, fresh { c with numPerceptrons := rows }, ofConfig_of_validate valid,
    ofConfig_of_validate valid', alike, ?_, ?_⟩
  · intro es fs same
    have trained := trainAll_congr (p := fresh c) rfl power same
    refine ⟨trained, fun a b field => ?_⟩
    rw [trained]
    exact output_congr (index_eq_of_sameField (config_trainAll ..) power field)
  · intro larger es kept
    exact alike es es (sameAliasing_of_larger (numPerceptrons_dvd power power' larger) kept)

theorem only_aliasing_matters_of_moved_rows :
    let c : PerceptronConfig := ⟨2, 3, 4, 2⟩
    let d : PerceptronConfig := { c with numPerceptrons := 8 }
    let es : List Event := [⟨0, true⟩, ⟨4, false⟩, ⟨8, true⟩, ⟨4, false⟩, ⟨0, true⟩]
    let fs : List Event := [⟨12, true⟩, ⟨28, false⟩, ⟨44, true⟩, ⟨28, false⟩, ⟨12, true⟩]
    c.validate = .ok () ∧ d.validate = .ok () ∧ SameAliasing (fresh c) (fresh d) es fs ∧
      ((fresh d).trainAll (fs.take 4)).output 12 = 6 ∧
      ((Simulator.ofPredictor (.perceptron (fresh d)) ⟨false, 2⟩).run
        fs).value.stats.divergent = 1 := by
  intro c d es fs
  have valid : c.validate = .ok () := PerceptronConfig.validate_eq_ok_iff.2 ⟨⟨1, rfl⟩, by decide⟩
  have valid' : d.validate = .ok () := PerceptronConfig.validate_eq_ok_iff.2 ⟨⟨3, rfl⟩, by decide⟩
  have same : SameAliasing (fresh c) (fresh d) es fs := by
    refine ⟨?_, by decide⟩
    exact .cons rfl (.cons rfl (.cons rfl (.cons rfl (.cons rfl .nil))))
  obtain ⟨p, q, built, built', alike, -, -⟩ := only_aliasing_matters c 8 valid valid'
  obtain rfl : fresh c = p := Except.ok.inj ((ofConfig_of_validate valid).symm.trans built)
  obtain rfl : fresh d = q := Except.ok.inj ((ofConfig_of_validate valid').symm.trans built')
  have outputs := (alike es fs same).outputs 4 (⟨0, true⟩, ⟨12, true⟩) (List.mem_cons_self ..)
  have counts := (alike es fs same).counts ⟨false, 2⟩
  refine ⟨valid, valid', same, outputs.symm.trans ?_, counts.divergent.symm.trans ?_⟩
  · decide +kernel
  · decide +kernel

end BranchSim.Perceptron
