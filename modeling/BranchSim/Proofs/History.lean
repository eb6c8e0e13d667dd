import BranchSim.Config
import BranchSim.Event
import Mathlib.Algebra.Group.Nat.Defs
import Mathlib.Data.List.Induction
import Mathlib.Data.Nat.Bitwise

namespace BranchSim

theorem toNat_pred {n : UInt64} (positive : 0 < n.toNat) : (n - 1).toNat = n.toNat - 1 := by
  have one_le : (1 : UInt64) ≤ n := UInt64.le_iff_toNat_le.2 positive
  rw [UInt64.toNat_sub_of_le _ _ one_le, UInt64.toNat_one]

theorem toNat_lowMask {width : Nat} (fits : width ≤ History.maxWidth) :
    (lowMask width).toNat = 2 ^ width - 1 := by
  unfold lowMask
  split
  · rename_i full
    obtain rfl : width = 64 := Nat.le_antisymm fits full
    rfl
  · rename_i short
    have small : width < 64 := Nat.not_le.1 short
    have word : width < 2 ^ 64 := Nat.lt_trans small (by decide)
    have power : 2 ^ width < 2 ^ 64 := Nat.pow_lt_pow_right (by decide) small
    have shifted : ((1 : UInt64) <<< UInt64.ofNat width).toNat = 2 ^ width := by
      rw [UInt64.toNat_shiftLeft, UInt64.toNat_ofNat', Nat.mod_eq_of_lt word,
        Nat.mod_eq_of_lt small, UInt64.toNat_one, Nat.one_shiftLeft, Nat.mod_eq_of_lt power]
    have positive : 0 < ((1 : UInt64) <<< UInt64.ofNat width).toNat := by
      rw [shifted]
      exact Nat.two_pow_pos width
    rw [toNat_pred positive, shifted]

namespace History

theorem toNat_push (h : History) {width : Nat} (fits : width ≤ maxWidth) (taken : Bool) :
    (h.push width taken).word.toNat = (2 * h.word.toNat + taken.toNat) % 2 ^ width := by
  have digit : (if taken then 1 else 0 : UInt64).toNat = taken.toNat := by
    cases taken with
    | true => rfl
    | false => rfl
  -- A word has room for every width, so the digit that the shift loses is dropped in any case.
  have shifted : (h.word <<< 1).toNat = 2 ^ 1 * (h.word.toNat % 2 ^ 63) := by
    have one : (1 : UInt64).toNat % 64 = 1 := rfl
    rw [UInt64.toNat_shiftLeft, one, Nat.shiftLeft_eq]
    omega
  have joined : ((h.word <<< 1) ||| (if taken then 1 else 0)).toNat =
      2 * h.word.toNat % 2 ^ 64 + taken.toNat := by
    rw [UInt64.toNat_or, shifted, digit,
      ← Nat.two_pow_add_eq_or_of_lt (Bool.toNat_lt taken)]
    omega
  have divides : 2 ^ width ∣ 2 ^ 64 := Nat.pow_dvd_pow 2 fits
  calc (h.push width taken).word.toNat
      = (2 * h.word.toNat % 2 ^ 64 + taken.toNat) % 2 ^ width := by
        rw [push, UInt64.toNat_and, toNat_lowMask fits, Nat.and_two_pow_sub_one_eq_mod, joined]
    _ = (2 * h.word.toNat + taken.toNat) % 2 ^ width := by
        rw [Nat.add_mod, Nat.mod_mod_of_dvd _ divides, ← Nat.add_mod]

theorem toNat_push_lt (h : History) {width : Nat} (fits : width ≤ maxWidth) (taken : Bool) :
    (h.push width taken).word.toNat < 2 ^ width := by
  rw [toNat_push h fits]
  exact Nat.mod_lt _ (Nat.two_pow_pos width)

theorem ext_outcome {h h' : History} (same : ∀ i, h.outcome i = h'.outcome i) : h = h' := by
  have word : h.word = h'.word := UInt64.toNat_inj.1 (Nat.eq_of_testBit_eq same)
  cases h
  exact congrArg History.mk word

theorem outcome_push (h : History) {width : Nat} (fits : width ≤ maxWidth) (taken : Bool) (i : Nat) :
    (h.push width taken).outcome i =
      (decide (i < width) && if i = 0 then taken else h.outcome (i - 1)) := by
  rw [outcome, toNat_push h fits, Nat.testBit_mod_two_pow]
  congr 1
  cases i with
  | zero =>
      rw [if_pos rfl, Nat.testBit_zero]
      cases taken with
      | true => simp
      | false => simp
  | succ i =>
      have older : (2 * h.word.toNat + taken.toNat) / 2 = h.word.toNat := by
        have digit := taken.toNat_lt
        omega
      rw [if_neg (Nat.succ_ne_zero i), Nat.testBit_succ, older]
      rfl

def pushAll (h : History) (width : Nat) (outcomes : List Bool) : History :=
  outcomes.foldl (fun h taken => h.push width taken) h

theorem pushAll_concat (h : History) (width : Nat) (outcomes : List Bool) (taken : Bool) :
    h.pushAll width (outcomes ++ [taken]) = (h.pushAll width outcomes).push width taken :=
  List.foldl_append ..

theorem outcome_pushAll (h : History) {width : Nat} (fits : width ≤ maxWidth) {outcomes : List Bool}
    {i : Nat} (pushed : i < outcomes.length) :
    (h.pushAll width outcomes).outcome i =
      (decide (i < width) && outcomes[outcomes.length - 1 - i]) := by
  induction outcomes using List.reverseRecOn generalizing i with
  | nil => exact absurd pushed (Nat.not_lt_zero i)
  | append_singleton outcomes taken ih =>
      rw [pushAll_concat, outcome_push _ fits]
      cases i with
      | zero => simp
      | succ i =>
          have older : i < outcomes.length := by
            rw [List.length_append, List.length_singleton] at pushed
            omega
          have place : outcomes.length - 1 - i < outcomes.length := by omega
          have same : (outcomes ++ [taken]).length - 1 - (i + 1) = outcomes.length - 1 - i := by
            rw [List.length_append, List.length_singleton]
            omega
          simp only [Nat.succ_ne_zero, if_false, Nat.add_sub_cancel, ih older, same,
            List.getElem_append_left place]
          by_cases inside : i + 1 < width
          · simp [inside, Nat.lt_of_succ_lt inside]
          · simp [inside]

theorem toNat_pushAll_lt (h : History) {width : Nat} (fits : width ≤ maxWidth)
    {outcomes : List Bool} (pushed : outcomes ≠ []) :
    (h.pushAll width outcomes).word.toNat < 2 ^ width := by
  rcases outcomes.eq_nil_or_concat with none | ⟨before, taken, rfl⟩
  · exact absurd none pushed
  · rw [List.concat_eq_append, pushAll_concat]
    exact toNat_push_lt _ fits taken

/-- The number whose bits are the newest `width` outcomes of a list, the newest at bit `0`. -/
def packed (width : Nat) (outcomes : List Bool) : Nat :=
  Nat.ofBits fun i : Fin width => outcomes.reverse.getD i false

theorem testBit_packed (width : Nat) (outcomes : List Bool) (i : Nat) :
    (packed width outcomes).testBit i = (decide (i < width) && outcomes.reverse.getD i false) := by
  rw [packed, Nat.testBit_ofBits]
  by_cases inside : i < width
  · simp [inside]
  · simp [inside]

theorem outcome_pushAll_empty {width : Nat} (fits : width ≤ maxWidth) (outcomes : List Bool)
    (i : Nat) : (empty.pushAll width outcomes).outcome i = (packed width outcomes).testBit i := by
  rw [testBit_packed]
  induction outcomes using List.reverseRecOn generalizing i with
  | nil => simp [pushAll, empty, outcome]
  | append_singleton outcomes taken ih =>
      rw [pushAll_concat, outcome_push _ fits, List.reverse_concat]
      cases i with
      | zero => simp
      | succ i =>
          rw [if_neg (Nat.succ_ne_zero i), Nat.add_sub_cancel, ih, List.getD_cons_succ]
          by_cases inside : i + 1 < width
          · simp [inside, Nat.lt_of_succ_lt inside]
          · simp [inside]

theorem toNat_pushAll_empty {width : Nat} (fits : width ≤ maxWidth) (outcomes : List Bool) :
    (empty.pushAll width outcomes).word.toNat = packed width outcomes :=
  Nat.eq_of_testBit_eq (outcome_pushAll_empty fits outcomes)

def uniform (width : Nat) (taken : Bool) : History :=
  ⟨if taken then lowMask width else 0⟩

theorem outcome_uniform {width : Nat} (fits : width ≤ maxWidth) (taken : Bool) (i : Nat) :
    (uniform width taken).outcome i = (decide (i < width) && taken) := by
  cases taken with
  | true =>
      rw [outcome, uniform, if_pos rfl, toNat_lowMask fits, Nat.testBit_two_pow_sub_one,
        Bool.and_true]
  | false => simp [outcome, uniform]

theorem push_uniform {width : Nat} (fits : width ≤ maxWidth) (taken : Bool) :
    (uniform width taken).push width taken = uniform width taken := by
  apply ext_outcome
  intro i
  rw [outcome_push _ fits, outcome_uniform fits, outcome_uniform fits]
  by_cases inside : i < width
  · have newer : i - 1 < width := Nat.lt_of_le_of_lt (Nat.sub_le i 1) inside
    simp [inside, newer]
  · simp [inside]

/-- Repeating an outcome settles the low bits: those within the register hold it, the others
nothing. As few repetitions as there are bits, in the register and below `low`, are enough. -/
theorem outcome_pushAll_replicate (h : History) {width low n i : Nat} (positive : 0 < width)
    (fits : width ≤ maxWidth) (long : min low width ≤ n) (inside : i < low) (taken : Bool) :
    (h.pushAll width (List.replicate n taken)).outcome i = (decide (i < width) && taken) := by
  by_cases pushed : i < n
  · rw [outcome_pushAll h fits (by simpa using pushed), List.getElem_replicate]
  · have outside : width ≤ i := by omega
    have some_pushed : List.replicate n taken ≠ [] := by
      rw [Ne, List.replicate_eq_nil_iff]
      omega
    have bound := h.toNat_pushAll_lt fits some_pushed
    have below := Nat.lt_of_lt_of_le bound (Nat.pow_le_pow_right Nat.two_pos outside)
    rw [outcome, Nat.testBit_lt_two_pow below, decide_eq_false (Nat.not_lt.2 outside),
      Bool.false_and]

theorem pushAll_replicate (h : History) {width n : Nat} (positive : 0 < width)
    (fits : width ≤ maxWidth) (long : width ≤ n) (taken : Bool) :
    h.pushAll width (List.replicate n taken) = uniform width taken := by
  apply ext_outcome
  intro i
  rw [outcome_uniform fits]
  exact h.outcome_pushAll_replicate positive fits ((min_le_right _ _).trans long)
    (Nat.lt_succ_self i) taken

end History

end BranchSim
