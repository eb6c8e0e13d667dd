import BranchSim.Proofs.Config.Geometry
import BranchSim.Proofs.History
import BranchSim.Proofs.Perceptron.Shape
import BranchSim.Proofs.Predictor.Operations
import Mathlib.Algebra.Group.Int.Defs

namespace BranchSim
open Predictor (Operation)

theorem clamp_mem {lo hi : Int} (order : lo ≤ hi) (v : Int) :
    lo ≤ clamp lo hi v ∧ clamp lo hi v ≤ hi := by
  unfold clamp
  omega

theorem PerceptronConfig.weightBound_eq (c : PerceptronConfig) :
    c.weightBound = 2 ^ (c.weightBits.toNat - 1) :=
  Nat.one_shiftLeft _

namespace Perceptron

structure Kept (c : PerceptronConfig) (p : Perceptron) : Prop where
  config : p.config = c
  shaped : p.Shaped
  range : ∀ row ∈ p.rows, ∀ w ∈ row, c.weightMin ≤ w ∧ w ≤ c.weightMax
  width : p.history.word.toNat < 2 ^ c.historyLength.toNat

theorem zero_mem_range (c : PerceptronConfig) : c.weightMin ≤ 0 ∧ 0 ≤ c.weightMax := by
  have positive : 0 < c.weightBound := by
    rw [c.weightBound_eq]
    exact Nat.two_pow_pos _
  unfold PerceptronConfig.weightMin PerceptronConfig.weightMax
  omega

theorem kept_fresh (c : PerceptronConfig) : Kept c (fresh c) where
  config := rfl
  shaped := shaped_fresh c
  range := by
    intro row row_mem w w_mem
    obtain ⟨-, rfl⟩ := Array.mem_replicate.1 row_mem
    obtain ⟨-, rfl⟩ := List.mem_replicate.1 w_mem
    exact zero_mem_range c
  width := Nat.two_pow_pos _

theorem range_adjust (c : PerceptronConfig) (inputs row : List Int) (taken : Bool) :
    ∀ w ∈ adjust c inputs taken row, c.weightMin ≤ w ∧ w ≤ c.weightMax := by
  intro w member
  unfold adjust at member
  obtain ⟨i, bound, rfl⟩ := List.getElem_of_mem member
  have order := Int.le_trans (zero_mem_range c).1 (zero_mem_range c).2
  rw [List.getElem_zipWith]
  exact clamp_mem order _

variable {c : PerceptronConfig} {p : Perceptron}

theorem Kept.train (kept : Kept c p) (fits : c.historyLength.toNat ≤ History.maxWidth) (e : Event) :
    Kept c (p.train e) where
  config := kept.config
  shaped := kept.shaped.train e
  range := by
    intro row member
    -- A row that changed has just been clamped, whatever it was before.
    rcases mem_rows_train member with same | ⟨before, -, rfl⟩
    · exact kept.range row same
    · rw [kept.config]
      exact range_adjust c p.inputs before e.taken
  width := by
    have pushed := p.history.toNat_push_lt fits e.taken
    rw [← kept.config] at pushed ⊢
    exact pushed

theorem Kept.reset (kept : Kept c p) : Kept c p.reset := by
  rw [kept.shaped.reset_eq_fresh, kept.config]
  exact kept_fresh c

theorem history_trainAll (p : Perceptron) (es : List Event) :
    (p.trainAll es).history =
      p.history.pushAll p.config.historyLength.toNat (es.map (·.taken)) := by
  induction es generalizing p with
  | nil => rfl
  | cons e es ih => exact ih (p.train e)

def performAll (p : Perceptron) (ops : List Operation) : Perceptron :=
  Operation.performAll train reset p ops

theorem Kept.performAll (kept : Kept c p) (fits : c.historyLength.toNat ≤ History.maxWidth)
    (ops : List Operation) : Kept c (p.performAll ops) :=
  Operation.performAll_preserves kept (fun e kept => kept.train fits e) Kept.reset ops

theorem Kept.index_eq (kept : Kept c p) (pc : Address) :
    p.index pc = pc.word.toNat % c.numPerceptrons.toNat := by
  rw [index, kept.config]

theorem Kept.index_lt (kept : Kept c p) (power : c.numPerceptrons.toNat.isPowerOfTwo)
    (pc : Address) : p.index pc < c.numPerceptrons.toNat := by
  have positive : 0 < c.numPerceptrons.toNat := by
    obtain ⟨k, same⟩ := power
    rw [same]
    exact Nat.two_pow_pos k
  rw [kept.index_eq]
  exact Nat.mod_lt _ positive

theorem Kept.weights?_index (kept : Kept c p) (power : c.numPerceptrons.toNat.isPowerOfTwo)
    (pc : Address) : p.weights? (p.index pc) = some (p.row pc) := by
  have bound : p.index pc < p.rows.size := by
    rw [kept.shaped.size, kept.config]
    exact kept.index_lt power pc
  rw [row, weights?, Array.getElem?_eq_getElem bound]
  rfl

theorem Kept.mem_rows (kept : Kept c p) (power : c.numPerceptrons.toNat.isPowerOfTwo)
    (pc : Address) : p.row pc ∈ p.rows :=
  Array.mem_of_getElem? (kept.weights?_index power pc)

end Perceptron

end BranchSim
