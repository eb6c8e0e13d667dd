import BranchSim.Proofs.Perceptron.Rule

namespace BranchSim
open scoped BigOperators
open Predictor (Operation)

def Fits (bits : Nat) (v : Int) : Prop :=
  (BitVec.ofInt bits v).toInt = v

theorem fits_of_natAbs_lt {bits : Nat} {v : Int} (some_bits : 0 < bits)
    (room : v.natAbs < 2 ^ (bits - 1)) : Fits bits v := by
  have room : (v.natAbs : Int) < 2 ^ (bits - 1) := by exact_mod_cast room
  apply BitVec.toInt_ofInt_eq_self some_bits
  · omega
  · omega

/-- A loop that adds or subtracts one weight at a time gets no further than by one weight each. -/
theorem natAbs_signed_sum_le (h : History) {bias : Int} {w : Nat → Int} {k limit : Nat}
    (first : bias.natAbs ≤ limit) (others : ∀ i < k, (w i).natAbs ≤ limit) :
    (bias + ∑ i ∈ Finset.range k, if h.outcome i then w i else -w i).natAbs ≤
      (k + 1) * limit := by
  induction k with
  | zero => simpa using first
  | succ k ih =>
      have before := ih fun i inside => others i (Nat.lt_succ_of_lt inside)
      have last : (if h.outcome k then w k else -w k).natAbs ≤ limit := by
        have weight := others k (Nat.lt_succ_self k)
        split
        · exact weight
        · rw [Int.natAbs_neg]
          exact weight
      rw [Finset.sum_range_succ, ← add_assoc, Nat.succ_mul]
      exact (Int.natAbs_add_le ..).trans (Nat.add_le_add before last)

namespace PerceptronConfig

variable {c : PerceptronConfig} {v : Int}

theorem weightBound_le (bits : c.weightBits.toNat ≤ maxWeightBits) : c.weightBound ≤ 2 ^ 31 := by
  rw [c.weightBound_eq]
  exact Nat.pow_le_pow_right Nat.two_pos (Nat.sub_le_sub_right bits 1)

theorem inputs_mul_weightBound_le (history : c.historyLength.toNat ≤ History.maxWidth)
    (bits : c.weightBits.toNat ≤ maxWeightBits) :
    (c.historyLength.toNat + 1) * c.weightBound ≤ 65 * 2 ^ 31 :=
  Nat.mul_le_mul (Nat.succ_le_succ history) (weightBound_le bits)

theorem natAbs_le_weightBound (range : c.weightMin ≤ v ∧ v ≤ c.weightMax) :
    v.natAbs ≤ c.weightBound := by
  unfold weightMin weightMax at range
  omega

theorem fits_of_mem_range (bits : c.weightBits.toNat ≤ maxWeightBits)
    (range : c.weightMin ≤ v ∧ v ≤ c.weightMax) : Fits 32 v := by
  have bound := weightBound_le bits
  unfold weightMin weightMax at range
  -- The least weight of 32 bits has no positive counterpart, so its size alone does not tell.
  apply BitVec.toInt_ofInt_eq_self (by decide)
  · omega
  · omega

end PerceptronConfig

namespace Perceptron

variable {c : PerceptronConfig} {p : Perceptron}

theorem Kept.natAbs_le (kept : Kept c p) (power : c.numPerceptrons.toNat.isPowerOfTwo)
    (pc : Address) : ∀ v ∈ p.row pc, v.natAbs ≤ c.weightBound := by
  intro v member
  exact PerceptronConfig.natAbs_le_weightBound (kept.range _ (kept.mem_rows power pc) v member)

theorem Kept.sums_le (kept : Kept c p) (power : c.numPerceptrons.toNat.isPowerOfTwo)
    (pc : Address) :
    let n := c.historyLength.toNat
    ∃ bias w, p.weights? (p.index pc) = some (bias :: (List.range n).map w) ∧
      let sum (k : Nat) := bias + ∑ i ∈ Finset.range k, if p.history.outcome i then w i else -w i
      p.output pc = sum n ∧ ∀ k ≤ n, (sum k).natAbs ≤ (n + 1) * c.weightBound := by
  intro n
  have at_pc := kept.weights?_index power pc
  have small := kept.natAbs_le power pc
  obtain ⟨bias, w, row, -, output⟩ := kept.exists_row power pc
  rw [row] at at_pc small
  obtain ⟨first, others⟩ := List.forall_mem_cons.1 small
  refine ⟨bias, w, at_pc, output, fun k inside => ?_⟩
  calc _ ≤ (k + 1) * c.weightBound := by
        apply natAbs_signed_sum_le p.history first
        intro i below
        exact others _ (List.mem_map_of_mem (List.mem_range.2 (below.trans_le inside)))
    _ ≤ (n + 1) * c.weightBound := Nat.mul_le_mul_right _ (Nat.succ_le_succ inside)

theorem Kept.natAbs_output_le (kept : Kept c p) (power : c.numPerceptrons.toNat.isPowerOfTwo)
    (pc : Address) : (p.output pc).natAbs ≤ (c.historyLength.toNat + 1) * c.weightBound := by
  obtain ⟨bias, w, -, output, sums⟩ := kept.sums_le power pc
  rw [output]
  exact sums _ le_rfl

theorem Kept.fits_advance (kept : Kept c p) (power : c.numPerceptrons.toNat.isPowerOfTwo)
    (bits : c.weightBits.toNat ≤ PerceptronConfig.maxWeightBits) (pc : Address) (taken : Bool) :
    ∀ v ∈ advance (sign taken) (p.row pc) p.inputs, Fits 64 v := by
  intro v member
  have bound := PerceptronConfig.weightBound_le bits
  have step := natAbs_le_of_mem_advance (natAbs_sign taken) p.inputs_units
    (kept.natAbs_le power pc) v member
  apply fits_of_natAbs_lt (by decide)
  omega

theorem Kept.train_of_threshold (kept : Kept c p) (power : c.numPerceptrons.toNat.isPowerOfTwo)
    (high : (c.historyLength.toNat + 1) * c.weightBound ≤ c.trainingThreshold.toNat) (e : Event) :
    p.adjusts e ∧ (p.train e).weights? (p.index e.pc) =
      some ((advance (sign e.taken) (p.row e.pc) p.inputs).map
        (clamp c.weightMin c.weightMax)) := by
  have active : p.adjusts e := by
    have small := (kept.natAbs_output_le power e.pc).trans high
    rw [← kept.config] at small
    rw [adjusts, decide_eq_true small, Bool.or_true]
  refine ⟨active, ?_⟩
  rw [weights?_train, if_pos ⟨rfl, active⟩, kept.weights?_index power, Option.map_some,
    adjust_eq_map_clamp, kept.config]

/-- In every state that training and resets can reach, nothing that a prediction or a training
computes leaves its word. With a threshold that no output exceeds, each training writes its row. -/
theorem arithmetic_fits_words (built : ofConfig c = .ok p) (ops : List Operation) (pc : Address) :
    let q := p.performAll ops
    let n := c.historyLength.toNat
    let half := 2 ^ (c.weightBits.toNat - 1)
    let limit := (n + 1) * half
    limit ≤ 65 * 2 ^ 31 ∧
    (c.weightMin = -half ∧ c.weightMax = half - 1 ∧
      Fits 64 half ∧ Fits 32 c.weightMin ∧ Fits 32 c.weightMax) ∧
    (∃ bias w, q.weights? (q.index pc) = some (bias :: (List.range n).map w) ∧
      let sum (k : Nat) := bias + ∑ i ∈ Finset.range k, if q.history.outcome i then w i else -w i
      q.output pc = sum n ∧ ∀ k ≤ n, (sum k).natAbs ≤ limit ∧ Fits 64 (sum k)) ∧
    ∀ taken,
      let stepped := advance (sign taken) (q.row pc) q.inputs
      (∀ v ∈ stepped, Fits 64 v ∧ Fits 32 (clamp c.weightMin c.weightMax v)) ∧
      (limit ≤ c.trainingThreshold.toNat → q.adjusts ⟨pc, taken⟩ ∧
        (q.train ⟨pc, taken⟩).weights? (q.index pc) =
          some (stepped.map (clamp c.weightMin c.weightMax))) := by
  intro q n half limit
  obtain ⟨valid, rfl⟩ := of_ofConfig built
  obtain ⟨power, ⟨-, fits⟩, -, bits⟩ := PerceptronConfig.validate_eq_ok_iff.1 valid
  have kept : Kept c q := (kept_fresh c).performAll fits ops
  have order := zero_mem_range c
  have most := PerceptronConfig.inputs_mul_weightBound_le fits bits
  have narrow := PerceptronConfig.weightBound_le bits
  have bound : half = c.weightBound := c.weightBound_eq.symm
  obtain ⟨bias, w, row, output, sums⟩ := kept.sums_le power pc
  simp only [limit, bound]
  refine ⟨most, ⟨rfl, rfl, ?_, ?_, ?_⟩, ⟨bias, w, row, output, ?_⟩, ?_⟩
  · apply fits_of_natAbs_lt (by decide)
    omega
  · exact PerceptronConfig.fits_of_mem_range bits ⟨le_rfl, order.1.trans order.2⟩
  · exact PerceptronConfig.fits_of_mem_range bits ⟨order.1.trans order.2, le_rfl⟩
  · intro k inside
    have sum := sums k inside
    exact ⟨sum, fits_of_natAbs_lt (by decide) (sum.trans_lt (most.trans_lt (by decide)))⟩
  · intro taken
    refine ⟨fun v member => ⟨kept.fits_advance power bits pc taken v member, ?_⟩, fun high => ?_⟩
    · exact PerceptronConfig.fits_of_mem_range bits (clamp_mem (order.1.trans order.2) v)
    · exact kept.train_of_threshold power high ⟨pc, taken⟩

theorem arithmetic_fits_words_at_extremes :
    let c : PerceptronConfig := ⟨2, 1, 2, 4⟩
    let ops : List Operation := [.train ⟨4, true⟩, .train ⟨0, false⟩, .train ⟨4, true⟩,
      .train ⟨0, false⟩, .train ⟨4, true⟩]
    let q := (fresh c).performAll ops
    ofConfig c = .ok (fresh c) ∧ q.weights? 0 = some [-2, -2] ∧ q.output 0 = -4 ∧
      (c.historyLength.toNat + 1) * 2 ^ (c.weightBits.toNat - 1) ≤ c.trainingThreshold.toNat ∧
      q.adjusts ⟨0, false⟩ ∧ (q.train ⟨0, false⟩).weights? 0 = some [-2, -2] ∧
      Fits 32 c.weightMin ∧ c.weightMin = -2 := by
  intro c ops q
  have valid : c.validate = .ok () := PerceptronConfig.validate_eq_ok_iff.2 ⟨⟨1, rfl⟩, by decide⟩
  have built : ofConfig c = .ok (fresh c) := ofConfig_of_validate valid
  have high : (c.historyLength.toNat + 1) * 2 ^ (c.weightBits.toNat - 1) ≤
      c.trainingThreshold.toNat := by
    decide
  have row : q.row 0 = [-2, -2] := by decide +kernel
  have inputs : q.inputs = [1, 1] := by decide +kernel
  obtain ⟨-, ⟨lower, -, -, least, -⟩, -, trained⟩ := arithmetic_fits_words built ops 0
  obtain ⟨active, written⟩ := (trained false).2 high
  have index : q.index 0 = 0 := by decide +kernel
  rw [index] at written
  have stepped : advance (sign false) (q.row 0) q.inputs = [-3, -3] := by
    rw [row, inputs]
    decide
  refine ⟨built, by decide +kernel, by decide +kernel, high, active, written.trans ?_, least,
    lower.trans (by decide)⟩
  change some ((advance (sign false) (q.row 0) q.inputs).map _) = _
  rw [stepped]
  decide

end Perceptron

end BranchSim
