import BranchSim.Workload.Factorial
import Mathlib.Data.Nat.Size
import Mathlib.Tactic.Ring

/-!
# Multiplication by shift and add

The branches of a product are told by the binary digits of its right factor, the lowest first. The
value is the product of the two words. Where the product of the integers is a word too, no sum on
the way to it leaves the words (`Room`), though the left factor may when it is doubled for the last
time. `mulInto` is the loop in terms of shifts and a mask. It ends without a result where a sum
overflows, and it writes behind what is recorded already.
-/

namespace BranchSim.Workload.Factorial

variable {result a b : Int64}

/-! ## Halves and lowest digits of words -/

theorem toInt_half (nonneg : 0 ≤ b) : (b / 2).toInt = b.toInt / 2 := by
  rw [Int64.toInt_div_of_ne_right b 2 (by decide)]
  exact Int.tdiv_eq_ediv_of_nonneg (Int64.le_iff_toInt_le.1 nonneg)

theorem toInt_digit (nonneg : 0 ≤ b) : (b % 2).toInt = b.toInt % 2 := by
  rw [Int64.toInt_mod]
  exact Int.tmod_eq_emod_of_nonneg (Int64.le_iff_toInt_le.1 nonneg)

theorem half_nonneg (nonneg : 0 ≤ b) : 0 ≤ b / 2 := by
  have nonneg_int : 0 ≤ b.toInt := Int64.le_iff_toInt_le.1 nonneg
  rw [Int64.le_iff_toInt_le, toInt_half nonneg]
  exact Int.ediv_nonneg nonneg_int (by decide)

theorem digit_eq (nonneg : 0 ≤ b) : b % 2 = 0 ∨ b % 2 = 1 := by
  rcases Int.emod_two_eq_zero_or_one b.toInt with even | odd
  · exact .inl (Int64.toInt_inj.1 ((toInt_digit nonneg).trans even))
  · exact .inr (Int64.toInt_inj.1 ((toInt_digit nonneg).trans odd))

theorem toNat_half (nonneg : 0 ≤ b) : (b / 2).toNatClampNeg = b.toNatClampNeg / 2 := by
  change (b / 2).toInt.toNat = b.toInt.toNat / 2
  rw [toInt_half nonneg]
  omega

theorem digit_ne_zero (nonneg : 0 ≤ b) : (b % 2 != 0) = (b.toNatClampNeg % 2 != 0) := by
  have nonneg_int : 0 ≤ b.toInt := Int64.le_iff_toInt_le.1 nonneg
  rw [Bool.eq_iff_iff, bne_iff_ne, bne_iff_ne, ne_eq, ← Int64.toInt_inj, toInt_digit nonneg]
  change ¬ b.toInt % 2 = 0 ↔ b.toInt.toNat % 2 ≠ 0
  omega

theorem halves_add_digit (nonneg : 0 ≤ b) : b / 2 + b / 2 + b % 2 = b := by
  have parts : (b / 2).toInt + (b / 2).toInt + (b % 2).toInt = b.toInt := by
    rw [toInt_half nonneg, toInt_digit nonneg]
    omega
  calc b / 2 + b / 2 + b % 2
      = Int64.ofInt ((b / 2).toInt + (b / 2).toInt + (b % 2).toInt) := by
        rw [Int64.ofInt_add, Int64.ofInt_add, Int64.ofInt_toInt, Int64.ofInt_toInt]
    _ = b := by rw [parts, Int64.ofInt_toInt]

theorem shiftLeft_one (a : Int64) : a <<< 1 = a + a := by
  rw [← Int64.toBitVec_inj, Int64.toBitVec_shiftLeft, Int64.toBitVec_add]
  change a.toBitVec <<< 1 = _
  rw [← BitVec.toNat_inj, BitVec.toNat_shiftLeft, BitVec.toNat_add, Nat.shiftLeft_eq, pow_one,
    Nat.mul_two]

theorem shiftRight_one (nonneg : 0 ≤ b) : b >>> 1 = b / 2 := by
  rw [← Int64.toInt_inj, toInt_half nonneg, ← Int64.toInt_toBitVec, Int64.toBitVec_shiftRight,
    BitVec.toInt_sshiftRight', Int64.toInt_toBitVec]
  exact Int.shiftRight_eq_div_pow b.toInt 1

theorem and_one (nonneg : 0 ≤ b) : b &&& 1 = b % 2 := by
  have whole : (b.toBitVec.toNat : Int) = b.toInt := by
    rw [Int64.toNat_toBitVec_of_le nonneg, Int64.toInt_eq_toNatClampNeg nonneg]
  rw [← Int64.toInt_inj, toInt_digit nonneg, ← whole, ← Int64.toInt_toBitVec, Int64.toBitVec_and,
    BitVec.toInt_and]
  change (((b.toBitVec.toNat &&& 1 : Nat) : Int)).bmod (2 ^ 64) = _
  rw [Nat.and_one_is_mod, Int.natCast_mod]
  exact Int.bmod_eq_of_le (by omega) (by omega)

/-! ## One round -/

def addDigit (result a b : Int64) : Int64 :=
  if b % 2 != 0 then result + a else result

theorem addDigit_eq (result a : Int64) (nonneg : 0 ≤ b) :
    addDigit result a b = result + a * (b % 2) := by
  rcases digit_eq nonneg with even | odd
  · rw [addDigit, even, Int64.mul_zero, Int64.add_zero]
    rfl
  · rw [addDigit, odd, Int64.mul_one]
    rfl

@[elab_as_elim] theorem halving {motive : Int64 → Prop} (ends : ∀ b, ¬ 0 < b → motive b)
    (round : ∀ b, 0 < b → motive (b / 2) → motive b) (b : Int64) : motive b := by
  by_cases positive : 0 < b
  · exact round b positive (halving ends round (b / 2))
  · exact ends b positive
termination_by b.toNatClampNeg
decreasing_by exact half_lt positive

theorem mulAdd_ends (result a : Int64) (ends : ¬ 0 < b) :
    mulAdd result a b = ⟨result, [⟨mulLoop, false⟩]⟩ := by
  rw [mulAdd, dif_neg ends]
  rfl

theorem mulAdd_round (result a : Int64) (positive : 0 < b) :
    mulAdd result a b =
      ⟨(mulAdd (addDigit result a b) (a + a) (b / 2)).value, ⟨mulLoop, true⟩ ::
        ⟨mulBit, b % 2 != 0⟩ :: (mulAdd (addDigit result a b) (a + a) (b / 2)).emitted⟩ := by
  rw [mulAdd, dif_pos positive]
  rfl

theorem value_mulAdd (result a : Int64) (nonneg : 0 ≤ b) :
    (mulAdd result a b).value = result + a * b := by
  induction b using halving generalizing result a with
  | ends b ends =>
      obtain rfl : b = 0 := Int64.le_antisymm (Int64.not_lt.1 ends) nonneg
      rw [mulAdd_ends result a ends, Int64.mul_zero, Int64.add_zero]
  | round b positive ih =>
      rw [mulAdd_round result a positive, ih _ _ (half_nonneg nonneg), addDigit_eq result a nonneg]
      calc result + a * (b % 2) + (a + a) * (b / 2)
          = result + a * (b / 2 + b / 2 + b % 2) := by
            rw [Int64.mul_add, Int64.mul_add, Int64.add_mul]
            ac_rfl
        _ = result + a * b := by rw [halves_add_digit nonneg]

/-! ## The digits of the right factor -/

def rounds (n : Nat) : List Event :=
  n.bits.flatMap fun digit => [⟨mulLoop, true⟩, ⟨mulBit, digit⟩]

theorem bits_of_pos {n : Nat} (positive : 0 < n) : n.bits = (n % 2 != 0) :: (n / 2).bits := by
  obtain ⟨half, rfl | rfl⟩ := Nat.even_or_odd' n
  · rw [Nat.bit0_bits half (by omega), Nat.mul_mod_right, Nat.mul_div_cancel_left half Nat.two_pos]
    rfl
  · have whole : (2 * half + 1) / 2 = half := by omega
    rw [Nat.bit1_bits half, Nat.mul_add_mod, whole]
    rfl

theorem rounds_of_pos {n : Nat} (positive : 0 < n) :
    rounds n = ⟨mulLoop, true⟩ :: ⟨mulBit, n % 2 != 0⟩ :: rounds (n / 2) := by
  rw [rounds, bits_of_pos positive]
  rfl

theorem length_rounds (n : Nat) : (rounds n).length = 2 * n.size := by
  rw [rounds, List.length_flatMap, ← Nat.size_eq_bits_len]
  simp only [List.length_cons, List.length_nil]
  rw [List.map_const', List.sum_replicate_nat, Nat.mul_comm]

theorem emitted_mulAdd (result a b : Int64) :
    (mulAdd result a b).emitted = rounds b.toNatClampNeg ++ [⟨mulLoop, false⟩] := by
  induction b using halving generalizing result a with
  | ends b ends =>
      have none : b.toNatClampNeg = 0 := Int64.toNatClampNeg_eq_zero_iff.2 (Int64.not_lt.1 ends)
      rw [mulAdd_ends result a ends, none]
      rfl
  | round b positive ih =>
      have some_digits : 0 < b.toNatClampNeg := (Int64.toNatClampNeg_pos_iff b).2 positive
      have nonneg : 0 ≤ b := Int64.le_of_lt positive
      rw [mulAdd_round result a positive, rounds_of_pos some_digits, ih, toNat_half nonneg,
        digit_ne_zero nonneg]
      rfl

/-! ## Room for the sums -/

/-- Neither the result nor the product that is still to be added to it leaves the words. The left
factor counts as long as it is going to be used. -/
structure Room (result a b : Int64) : Prop where
  result_nonneg : 0 ≤ result.toInt
  factor_nonneg : 0 < b → 0 ≤ a.toInt
  sum_lt : 0 < b → result.toInt + a.toInt * b.toInt < 2 ^ 63

theorem Room.sum_mem (room : Room result a b) (positive : 0 < b) :
    0 ≤ result.toInt + a.toInt ∧ result.toInt + a.toInt < 2 ^ 63 := by
  have result_nonneg := room.result_nonneg
  have factor_nonneg := room.factor_nonneg positive
  have sum_lt := room.sum_lt positive
  have used : a.toInt * 1 ≤ a.toInt * b.toInt :=
    Int.mul_le_mul_of_nonneg_left (Int64.lt_iff_toInt_lt.1 positive) factor_nonneg
  omega

theorem Room.toInt_add (room : Room result a b) (positive : 0 < b) :
    (result + a).toInt = result.toInt + a.toInt := by
  obtain ⟨nonneg, small⟩ := room.sum_mem positive
  rw [Int64.toInt_add]
  exact Int.bmod_eq_of_le (by omega) (by omega)

theorem Room.toInt_addDigit (room : Room result a b) (positive : 0 < b) :
    (addDigit result a b).toInt = result.toInt + a.toInt * (b.toInt % 2) := by
  have nonneg : 0 ≤ b := Int64.le_of_lt positive
  rw [addDigit, ← toInt_digit nonneg]
  rcases digit_eq nonneg with even | odd
  · rw [even, Int64.toInt_zero, Int.mul_zero, Int.add_zero]
    rfl
  · rw [odd, Int64.toInt_one, Int.mul_one]
    exact room.toInt_add positive

theorem Room.toInt_double (room : Room result a b) (more : 2 ≤ b.toInt) :
    (a + a).toInt = 2 * a.toInt := by
  have positive : 0 < b := Int64.lt_iff_toInt_lt.2 (Int.lt_of_lt_of_le (by decide) more)
  have result_nonneg := room.result_nonneg
  have factor_nonneg := room.factor_nonneg positive
  have sum_lt := room.sum_lt positive
  have used : a.toInt * 2 ≤ a.toInt * b.toInt := Int.mul_le_mul_of_nonneg_left more factor_nonneg
  rw [Int64.toInt_add, ← Int.two_mul]
  exact Int.bmod_eq_of_le (by omega) (by omega)

theorem Room.round (room : Room result a b) (positive : 0 < b) :
    Room (addDigit result a b) (a + a) (b / 2) := by
  have half := toInt_half (Int64.le_of_lt positive)
  have added := room.toInt_addDigit positive
  have digits (more : 0 < b / 2) : 2 ≤ b.toInt := by
    have some_left : 0 < (b / 2).toInt := Int64.lt_iff_toInt_lt.1 more
    omega
  refine ⟨?_, fun more => ?_, fun more => ?_⟩
  · rw [added]
    have digit := Int.emod_nonneg b.toInt (show (2 : Int) ≠ 0 by decide)
    exact Int.add_nonneg room.result_nonneg (Int.mul_nonneg (room.factor_nonneg positive) digit)
  · rw [room.toInt_double (digits more)]
    exact Int.mul_nonneg (by decide) (room.factor_nonneg positive)
  · calc (addDigit result a b).toInt + (a + a).toInt * (b / 2).toInt
        = result.toInt + a.toInt * (2 * (b.toInt / 2) + b.toInt % 2) := by
          rw [added, room.toInt_double (digits more), half]
          ring
      _ = result.toInt + a.toInt * b.toInt := by rw [Int.mul_ediv_add_emod]
      _ < 2 ^ 63 := room.sum_lt positive

/-! ## The loop on machine words -/

def mulInto (result a b : Int64) (recorded : List Event) : Option (Int64 × List Event) :=
  if positive : 0 < b then
    let odd := b &&& 1 != 0
    let recorded := recorded ++ [⟨mulLoop, true⟩] ++ [⟨mulBit, odd⟩]
    if odd && result.toBitVec.saddOverflow a.toBitVec then
      none
    else
      mulInto (if odd then result + a else result) (a <<< 1) (b >>> 1) recorded
  else
    some (result, recorded ++ [⟨mulLoop, false⟩])
termination_by b.toNatClampNeg
decreasing_by
  rw [shiftRight_one (Int64.le_of_lt positive)]
  exact half_lt positive

theorem Room.mulInto_eq (room : Room result a b) (earlier : List Event) :
    mulInto result a b earlier =
      some ((mulAdd result a b).value, earlier ++ (mulAdd result a b).emitted) := by
  induction b using halving generalizing result a earlier with
  | ends b ends =>
      rw [mulInto, dif_neg ends, mulAdd_ends result a ends]
  | round b positive ih =>
      have nonneg : 0 ≤ b := Int64.le_of_lt positive
      have fits : result.toBitVec.saddOverflow a.toBitVec = false := by
        obtain ⟨sum_nonneg, sum_lt⟩ := room.sum_mem positive
        rw [BitVec.saddOverflow, Int64.toInt_toBitVec, Int64.toInt_toBitVec, Bool.or_eq_false_iff,
          decide_eq_false_iff_not, decide_eq_false_iff_not]
        omega
      rw [mulInto, dif_pos positive]
      simp only [and_one nonneg, shiftLeft_one, shiftRight_one nonneg]
      rw [fits, Bool.and_false, if_neg Bool.false_ne_true, ← addDigit, ih (room.round positive),
        mulAdd_round result a positive]
      simp

/-- The doubled left factor may leave the words, but no sum does, and the digits of the right factor
tell the branches. -/
theorem mul_follows_digits {a b : Int64} (nonneg_a : 0 ≤ a) (nonneg_b : 0 ≤ b)
    (small : a.toInt * b.toInt < 2 ^ 63) (earlier : List Event) :
    ∃ product, product.toInt = a.toInt * b.toInt ∧
      let added := b.toNatClampNeg.bits.flatMap (fun digit => [⟨mulLoop, true⟩, ⟨mulBit, digit⟩]) ++
        [⟨mulLoop, false⟩]
      mulInto 0 a b earlier = some (product, earlier ++ added) ∧ mul a b = ⟨product, added⟩ ∧
        added.length = 2 * b.toNatClampNeg.size + 1 := by
  have nonneg_int : 0 ≤ a.toInt := Int64.le_iff_toInt_le.1 nonneg_a
  have product_nonneg : 0 ≤ a.toInt * b.toInt :=
    Int.mul_nonneg nonneg_int (Int64.le_iff_toInt_le.1 nonneg_b)
  have room : Room 0 a b := ⟨Int.le_refl 0, fun _ => nonneg_int, fun _ => by simpa using small⟩
  have value : (mul a b).value = a * b := (value_mulAdd 0 a nonneg_b).trans (Int64.zero_add _)
  have emitted := emitted_mulAdd 0 a b
  refine ⟨a * b, ?_, ?_, Recorded.ext value emitted, ?_⟩
  · rw [Int64.toInt_mul]
    exact Int.bmod_eq_of_le (by omega) (by omega)
  · rw [room.mulInto_eq, emitted, ← mul, value]
    rfl
  · rw [List.length_append, List.length_singleton, ← length_rounds]
    rfl

theorem mul_follows_digits_past_last_doubling :
    let a : Int64 := 1537228672809129301
    0 ≤ a ∧ (0 : Int64) ≤ 6 ∧ a.toInt * (6 : Int64).toInt < 2 ^ 63 ∧ a <<< 3 < 0 ∧
      mulInto 0 a 6 [⟨loopSite, true⟩] = some (9223372036854775806,
        [⟨loopSite, true⟩, ⟨mulLoop, true⟩, ⟨mulBit, false⟩, ⟨mulLoop, true⟩, ⟨mulBit, true⟩,
          ⟨mulLoop, true⟩, ⟨mulBit, true⟩, ⟨mulLoop, false⟩]) := by
  intro a
  have nonneg_a : 0 ≤ a := by decide
  have nonneg_b : (0 : Int64) ≤ 6 := by decide
  have small : a.toInt * (6 : Int64).toInt < 2 ^ 63 := by decide
  obtain ⟨product, value, run, -, -⟩ := mul_follows_digits nonneg_a nonneg_b small [⟨loopSite, true⟩]
  obtain rfl : product = 9223372036854775806 := Int64.toInt_inj.1 (value.trans (by decide))
  exact ⟨nonneg_a, nonneg_b, small, by decide, run.trans (by decide)⟩

end BranchSim.Workload.Factorial
