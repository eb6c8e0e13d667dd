import BranchSim.Proofs.History
import BranchSim.Proofs.Predictor.Reset

namespace BranchSim

theorem isPowerOfTwo_toNat_iff (n : UInt64) :
    n.toNat.isPowerOfTwo ↔ n ≠ 0 ∧ n &&& (n - 1) = 0 := by
  by_cases zero : n = 0
  · subst zero
    constructor
    · rintro ⟨k, same⟩
      exact absurd same (Nat.two_pow_pos k).ne
    · rintro ⟨nonzero, -⟩
      exact absurd rfl nonzero
  · have nonzero : n.toNat ≠ 0 := fun same => zero (UInt64.toNat_inj.1 same)
    have masked : (n &&& (n - 1)).toNat = n.toNat &&& (n.toNat - 1) := by
      rw [UInt64.toNat_and, toNat_pred (Nat.pos_of_ne_zero nonzero)]
    rw [← Nat.and_sub_one_eq_zero_iff_isPowerOfTwo nonzero, ← masked, ← UInt64.toNat_inj]
    exact ⟨fun same => ⟨zero, same⟩, And.right⟩

namespace Predictor

variable {kind : PredictorKind} {c : PredictorConfig}

theorem exists_ofKind_iff : (∃ q, ofKind kind c = .ok q) ↔ c.validateFor kind = .ok () := by
  rw [ofKind_eq, exists_map_eq_ok_iff]

theorem ofKind_eq_error_iff {e : GeometryError} :
    ofKind kind c = .error e ↔ c.validateFor kind = .error e := by
  rw [ofKind_eq, map_eq_error_iff]

end Predictor

namespace Config

variable {c : Config}

theorem validate_eq_ok_iff_forall :
    c.validate = .ok () ↔ ∀ kind, c.predictor.validateFor kind = .ok () := by
  rw [validate_eq_ok_iff]
  constructor
  · rintro ⟨perceptron, gshare⟩ kind
    cases kind with
    | static => rfl
    | gshare => exact gshare
    | perceptron => exact perceptron
  · intro all
    exact ⟨all .perceptron, all .gshare⟩

/-- The checks accept exactly the geometries in range, and name the first parameter that is not.
Predictors of each kind are built exactly if the check of their geometry accepts, which for the
static one it always does. -/
theorem validation_agrees_with_construction (c : Config) :
    let p := c.predictor.perceptron
    let g := c.predictor.gshare
    Checks p.validate
      [(∃ k, p.numPerceptrons.toNat = 2 ^ k, .notPowerOfTwo p.numPerceptrons),
        (1 ≤ p.historyLength.toNat ∧ p.historyLength.toNat ≤ 64, .historyLength p.historyLength),
        (2 ≤ p.weightBits.toNat ∧ p.weightBits.toNat ≤ 32, .weightBits p.weightBits)] ∧
    ((∃ k, p.numPerceptrons.toNat = 2 ^ k) ↔
      p.numPerceptrons ≠ 0 ∧ p.numPerceptrons &&& (p.numPerceptrons - 1) = 0) ∧
    Checks g.validate
      [(1 ≤ g.tableBits.toNat ∧ g.tableBits.toNat ≤ 24, .tableBits g.tableBits),
        (1 ≤ g.historyBits.toNat ∧ g.historyBits.toNat ≤ 64, .historyBits g.historyBits)] ∧
    (∀ kind,
      ((∃ q, Predictor.ofKind kind c.predictor = .ok q) ↔ c.predictor.validateFor kind = .ok ()) ∧
      ∀ e, Predictor.ofKind kind c.predictor = .error e ↔
        c.predictor.validateFor kind = .error e) ∧
    (c.validate = .ok () ↔ ∀ kind, ∃ q, Predictor.ofKind kind c.predictor = .ok q) ∧
    ∀ e, c.validate = .error e ↔
      Perceptron.ofConfig p = .error e ∨
        (∃ q, Perceptron.ofConfig p = .ok q) ∧ GShare.ofConfig g = .error e := by
  intro p g
  refine ⟨p.checks_validate, isPowerOfTwo_toNat_iff _, g.checks_validate, ?_, ?_, ?_⟩
  · intro kind
    exact ⟨Predictor.exists_ofKind_iff, fun e => Predictor.ofKind_eq_error_iff⟩
  · rw [validate_eq_ok_iff_forall]
    exact forall_congr' fun kind => Predictor.exists_ofKind_iff.symm
  · intro e
    rw [validate_eq_error_iff, Perceptron.ofConfig_eq, GShare.ofConfig_eq, exists_map_eq_ok_iff,
      map_eq_error_iff, map_eq_error_iff]

end Config

end BranchSim
