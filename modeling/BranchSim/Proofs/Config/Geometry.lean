import BranchSim.Config
import Mathlib.Algebra.Group.Nat.Defs

namespace BranchSim

section

variable {ε : Type} {check check' : Except ε Unit} {requirements : List (Prop × ε)}

/-- The error is that of the first requirement in the list that does not hold. -/
def FirstViolated : List (Prop × ε) → ε → Prop
  | [], _ => False
  | (holds, error) :: rest, e => ¬ holds ∧ e = error ∨ holds ∧ FirstViolated rest e

structure Checks (check : Except ε Unit) (requirements : List (Prop × ε)) : Prop where
  accepts : check = .ok () ↔ ∀ r ∈ requirements, r.1
  rejects : ∀ e, check = .error e ↔ FirstViolated requirements e

theorem checks_nil : Checks (.ok () : Except ε Unit) [] where
  accepts := by simp
  rejects e := ⟨nofun, False.elim⟩

theorem Checks.guard (checks : Checks check requirements) {holds violated : Prop}
    [Decidable violated] (opposite : violated ↔ ¬ holds) (error : ε) :
    Checks (if violated then .error error else check) ((holds, error) :: requirements) := by
  by_cases fails : violated
  · have unmet : ¬ holds := opposite.1 fails
    rw [if_pos fails]
    constructor
    · simp [unmet]
    · intro e
      simp [FirstViolated, unmet, eq_comm]
  · have met : holds := Classical.not_not.1 fun unmet => fails (opposite.2 unmet)
    rw [if_neg fails]
    constructor
    · simp [checks.accepts, met]
    · intro e
      simp [FirstViolated, checks.rejects, met]

theorem andThen_eq_ok_iff :
    (check >>= fun _ => check') = .ok () ↔ check = .ok () ∧ check' = .ok () := by
  cases check with
  | error e => exact ⟨nofun, nofun⟩
  | ok _ => exact ⟨fun accepted => ⟨rfl, accepted⟩, And.right⟩

theorem andThen_eq_error_iff {e : ε} :
    (check >>= fun _ => check') = .error e ↔
      check = .error e ∨ check = .ok () ∧ check' = .error e := by
  cases check with
  | error e' => exact ⟨.inl, fun | .inl raised => raised⟩
  | ok _ => exact ⟨fun raised => .inr ⟨rfl, raised⟩, fun | .inr both => both.2⟩

/-! A constructor checks its geometry first and has no other error. -/

theorem map_eq_ok_iff {α : Type} {a b : α} :
    (check.map fun _ => a) = .ok b ↔ check = .ok () ∧ b = a := by
  cases check with
  | error e => exact ⟨nofun, nofun⟩
  | ok _ => exact ⟨fun built => ⟨rfl, (Except.ok.inj built).symm⟩, fun | ⟨_, rfl⟩ => rfl⟩

theorem exists_map_eq_ok_iff {α : Type} {a : α} :
    (∃ b, (check.map fun _ => a) = .ok b) ↔ check = .ok () := by
  simp only [map_eq_ok_iff, exists_and_left, exists_eq, and_true]

theorem map_eq_error_iff {α : Type} {a : α} {e : ε} :
    (check.map fun _ => a) = .error e ↔ check = .error e := by
  cases check with
  | error e' => exact ⟨fun raised => congrArg _ (Except.error.inj raised),
      fun raised => congrArg _ (Except.error.inj raised)⟩
  | ok _ => exact ⟨nofun, nofun⟩

theorem zero_or_above_iff {n limit : Nat} : n = 0 ∨ limit < n ↔ ¬ (0 < n ∧ n ≤ limit) := by
  omega

end

namespace PerceptronConfig

theorem checks_validate (c : PerceptronConfig) :
    Checks c.validate
      [(c.numPerceptrons.toNat.isPowerOfTwo, .notPowerOfTwo c.numPerceptrons),
        (0 < c.historyLength.toNat ∧ c.historyLength.toNat ≤ History.maxWidth,
          .historyLength c.historyLength),
        (minWeightBits ≤ c.weightBits.toNat ∧ c.weightBits.toNat ≤ maxWeightBits,
          .weightBits c.weightBits)] := by
  have weights : c.weightBits.toNat < minWeightBits ∨ maxWeightBits < c.weightBits.toNat ↔
      ¬ (minWeightBits ≤ c.weightBits.toNat ∧ c.weightBits.toNat ≤ maxWeightBits) := by
    omega
  exact ((checks_nil.guard weights _).guard zero_or_above_iff _).guard Iff.rfl _

theorem validate_eq_ok_iff {c : PerceptronConfig} :
    c.validate = .ok () ↔ c.numPerceptrons.toNat.isPowerOfTwo ∧
      (0 < c.historyLength.toNat ∧ c.historyLength.toNat ≤ History.maxWidth) ∧
      minWeightBits ≤ c.weightBits.toNat ∧ c.weightBits.toNat ≤ maxWeightBits := by
  rw [c.checks_validate.accepts]
  simp

end PerceptronConfig

namespace GShareConfig

theorem checks_validate (c : GShareConfig) :
    Checks c.validate
      [(0 < c.tableBits.toNat ∧ c.tableBits.toNat ≤ maxTableBits, .tableBits c.tableBits),
        (0 < c.historyBits.toNat ∧ c.historyBits.toNat ≤ History.maxWidth,
          .historyBits c.historyBits)] :=
  (checks_nil.guard zero_or_above_iff _).guard zero_or_above_iff _

theorem validate_eq_ok_iff {c : GShareConfig} :
    c.validate = .ok () ↔ (0 < c.tableBits.toNat ∧ c.tableBits.toNat ≤ maxTableBits) ∧
      0 < c.historyBits.toNat ∧ c.historyBits.toNat ≤ History.maxWidth := by
  rw [c.checks_validate.accepts]
  simp

theorem tableSize_eq (c : GShareConfig) : c.tableSize = 2 ^ c.tableBits.toNat :=
  Nat.one_shiftLeft _

end GShareConfig

namespace Config

variable {c : Config} {e : GeometryError}

theorem validate_eq_ok_iff :
    c.validate = .ok () ↔
      c.predictor.perceptron.validate = .ok () ∧ c.predictor.gshare.validate = .ok () :=
  andThen_eq_ok_iff

theorem validate_eq_error_iff :
    c.validate = .error e ↔
      c.predictor.perceptron.validate = .error e ∨
        c.predictor.perceptron.validate = .ok () ∧ c.predictor.gshare.validate = .error e :=
  andThen_eq_error_iff

end Config

end BranchSim
