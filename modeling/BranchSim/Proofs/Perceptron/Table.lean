import BranchSim.FlatPerceptron
import BranchSim.Proofs.Perceptron.Layout
import Mathlib.Data.List.Basic

/-!
# The weight table

The table of a perceptron holds its rows one after the other. As long as its extent can be counted
by a word, no position in it wraps: every row that is looked up lies in the table, and calls on the
table and on the rows come to the same.
-/

namespace BranchSim
open Predictor (Operation)

/-! ## Rows of one length -/

theorem length_flatten_of_uniform {rows : List (List Int)} {width : Nat}
    (uniform : ∀ row ∈ rows, row.length = width) : rows.flatten.length = rows.length * width := by
  have lengths : rows.map List.length = List.replicate rows.length width :=
    List.eq_replicate_iff.2 ⟨List.length_map _, List.forall_mem_map.2 uniform⟩
  rw [List.length_flatten, lengths, List.sum_replicate_nat]

theorem slice_flatten {rows : List (List Int)} {width : Nat}
    (uniform : ∀ row ∈ rows, row.length = width) {i : Nat} (bound : i < rows.length) :
    (rows.flatten.drop (i * width)).take width = rows[i] := by
  induction rows generalizing i with
  | nil => exact absurd bound (Nat.not_lt_zero i)
  | cons row rows ih =>
      obtain ⟨here, later⟩ := List.forall_mem_cons.1 uniform
      cases i with
      | zero =>
          rw [Nat.zero_mul, List.drop_zero, List.flatten_cons, List.take_left' here]
          rfl
      | succ i =>
          have skipped : (i + 1) * width = row.length + i * width := by
            rw [here, Nat.succ_mul, Nat.add_comm]
          rw [List.flatten_cons, skipped, List.drop_length_add_append]
          exact ih later (Nat.lt_of_succ_lt_succ bound)

theorem flatten_set {rows : List (List Int)} {width : Nat}
    (uniform : ∀ row ∈ rows, row.length = width) {i : Nat} (bound : i < rows.length)
    (row : List Int) : (rows.set i row).flatten =
      rows.flatten.take (i * width) ++ row ++ rows.flatten.drop (i * width + width) := by
  induction rows generalizing i with
  | nil => exact absurd bound (Nat.not_lt_zero i)
  | cons first rows ih =>
      obtain ⟨here, later⟩ := List.forall_mem_cons.1 uniform
      cases i with
      | zero =>
          rw [List.set_cons_zero, List.flatten_cons, List.flatten_cons, Nat.zero_mul, Nat.zero_add,
            List.drop_left' here]
          rfl
      | succ i =>
          have skipped : (i + 1) * width = first.length + i * width := by
            rw [here, Nat.succ_mul, Nat.add_comm]
          rw [List.set_cons_succ, List.flatten_cons, List.flatten_cons,
            ih later (Nat.lt_of_succ_lt_succ bound), skipped, Nat.add_assoc,
            List.take_length_add_append, List.drop_length_add_append, List.append_assoc,
            List.append_assoc, List.append_assoc]

theorem FlatPerceptron.toList_write {table : Array Int} {first : Nat} {ws : List Int}
    (room : first + ws.length ≤ table.size) : (write table first ws).toList =
      table.toList.take first ++ ws ++ table.toList.drop (first + ws.length) := by
  induction ws generalizing table first with
  | nil => rw [write, List.append_nil, List.length_nil, Nat.add_zero, List.take_append_drop]
  | cons w ws ih =>
      rw [List.length_cons] at room
      have inside : first < table.toList.length := by
        rw [Array.length_toList]
        omega
      have front : (table.toList.take first ++ [w]).length = first + 1 := by
        rw [List.length_append, List.length_take, Nat.min_eq_left (Nat.le_of_lt inside)]
        rfl
      have written : (table.setIfInBounds first w).toList =
          (table.toList.take first ++ [w]) ++ table.toList.drop (first + 1) := by
        rw [Array.toList_setIfInBounds, List.set_eq_take_append_cons_drop, if_pos inside,
          List.append_assoc]
        rfl
      have later : first + 1 + ws.length ≤ (table.setIfInBounds first w).size := by
        rw [Array.size_setIfInBounds]
        omega
      rw [write, ih later, written, List.take_left' front, ← front, List.drop_length_add_append,
        List.drop_drop, front, List.length_cons, Nat.add_right_comm first 1, Nat.add_assoc first]
      simp only [List.append_assoc, List.cons_append, List.nil_append]

/-! ## Positions -/

theorem toNat_mul_of_lt {a b : UInt64} (fits : a.toNat * b.toNat < UInt64.size) :
    (a * b).toNat = a.toNat * b.toNat :=
  (UInt64.toNat_mul a b).trans (Nat.mod_eq_of_lt fits)

theorem toNat_add_of_lt {a b : UInt64} (fits : a.toNat + b.toNat < UInt64.size) :
    (a + b).toNat = a.toNat + b.toNat :=
  (UInt64.toNat_add a b).trans (Nat.mod_eq_of_lt fits)

theorem toNat_and_pred {n : UInt64} (power : n.toNat.isPowerOfTwo) (w : UInt64) :
    (w &&& (n - 1)).toNat = w.toNat % n.toNat := by
  obtain ⟨k, same⟩ := power
  have positive : 0 < n.toNat := by
    rw [same]
    exact Nat.two_pow_pos k
  rw [UInt64.toNat_and, toNat_pred positive, same, Nat.and_two_pow_sub_one_eq_mod]

namespace PerceptronConfig

theorem toNat_width {c : PerceptronConfig} (fits : c.historyLength.toNat ≤ History.maxWidth) :
    (c.historyLength + 1).toNat = c.historyLength.toNat + 1 := by
  apply toNat_add_of_lt
  exact Nat.lt_of_le_of_lt (Nat.add_le_add_right fits 1) (by decide)

/-- A geometry that is in range and whose weights can be counted by a word. -/
structure Addressable (c : PerceptronConfig) : Prop where
  valid : c.validate = .ok ()
  extent : c.numPerceptrons.toNat * (c.historyLength.toNat + 1) < UInt64.size

namespace Addressable

variable {c : PerceptronConfig}

theorem power (addressable : c.Addressable) : c.numPerceptrons.toNat.isPowerOfTwo :=
  (validate_eq_ok_iff.1 addressable.valid).1

theorem fits (addressable : c.Addressable) : c.historyLength.toNat ≤ History.maxWidth :=
  (validate_eq_ok_iff.1 addressable.valid).2.1.2

theorem toNat_width (addressable : c.Addressable) :
    (c.historyLength + 1).toNat = c.historyLength.toNat + 1 :=
  PerceptronConfig.toNat_width addressable.fits

theorem toNat_extent (addressable : c.Addressable) :
    (c.numPerceptrons * (c.historyLength + 1)).toNat =
      c.numPerceptrons.toNat * (c.historyLength.toNat + 1) := by
  rw [← addressable.toNat_width]
  apply toNat_mul_of_lt
  rw [addressable.toNat_width]
  exact addressable.extent

theorem row_fits (addressable : c.Addressable) {i : Nat} (bound : i < c.numPerceptrons.toNat) :
    (i + 1) * (c.historyLength.toNat + 1) < UInt64.size :=
  Nat.lt_of_le_of_lt (Nat.mul_le_mul_right _ bound) addressable.extent

variable {i : UInt64}

theorem toNat_first (addressable : c.Addressable)
    (fits : (i.toNat + 1) * (c.historyLength.toNat + 1) < UInt64.size) :
    (i * (c.historyLength + 1)).toNat = i.toNat * (c.historyLength.toNat + 1) := by
  rw [← addressable.toNat_width] at fits ⊢
  apply toNat_mul_of_lt
  exact Nat.lt_of_le_of_lt (Nat.mul_le_mul_right _ (Nat.le_succ _)) fits

theorem toNat_stop (addressable : c.Addressable)
    (fits : (i.toNat + 1) * (c.historyLength.toNat + 1) < UInt64.size) :
    (i * (c.historyLength + 1) + (c.historyLength + 1)).toNat =
      i.toNat * (c.historyLength.toNat + 1) + (c.historyLength.toNat + 1) := by
  rw [toNat_add_of_lt, addressable.toNat_first fits, addressable.toNat_width]
  rw [addressable.toNat_first fits, addressable.toNat_width, ← Nat.succ_mul]
  exact fits

end Addressable

end PerceptronConfig

namespace Perceptron

variable {c : PerceptronConfig} {p : Perceptron} {i : UInt64}

/-! ## The table of the rows -/

def flat (p : Perceptron) : FlatPerceptron where
  config := p.config
  history := p.history
  table := p.rows.toList.flatten.toArray
  historyMask := lowMask p.config.historyLength.toNat
  tableMask := p.config.numPerceptrons - 1
  rowSize := p.config.historyLength + 1
  weightMin := p.config.weightMin
  weightMax := p.config.weightMax

theorem flat_fresh (addressable : c.Addressable) : (fresh c).flat = .fresh c := by
  have table : (fresh c).rows.toList.flatten.toArray =
      Array.replicate (c.numPerceptrons * (c.historyLength + 1)).toNat 0 := by
    rw [fresh, Array.toList_replicate, List.flatten_replicate_replicate, addressable.toNat_extent,
      List.toArray_replicate]
  rw [flat, table]
  rfl

theorem flat_reset (p : Perceptron) : p.reset.flat = p.flat.reset := by
  have table : p.reset.rows.toList.flatten.toArray =
      p.rows.toList.flatten.toArray.map fun _ => 0 := by
    rw [List.map_toArray, List.map_flatten, reset, Array.toList_map]
  rw [flat, table]
  rfl

theorem Shaped.uniform (shaped : p.Shaped) :
    ∀ row ∈ p.rows.toList, row.length = p.config.historyLength.toNat + 1 := by
  intro row member
  exact shaped.length row (Array.mem_toList_iff.1 member)

theorem Shaped.size_flat (shaped : p.Shaped) : p.flat.table.size =
    p.config.numPerceptrons.toNat * (p.config.historyLength.toNat + 1) := by
  rw [flat, List.size_toArray, length_flatten_of_uniform shaped.uniform, Array.length_toList,
    shaped.size]

theorem Shaped.weights?_eq_slice (shaped : p.Shaped) (i : Nat) :
    p.weights? i =
      if i < p.config.numPerceptrons.toNat then
        some ((p.flat.table.toList.drop (i * (p.config.historyLength.toNat + 1))).take
          (p.config.historyLength.toNat + 1))
      else none := by
  unfold weights?
  split
  · rename_i bound
    have inside : i < p.rows.toList.length := by
      rw [Array.length_toList, shaped.size]
      exact bound
    rw [flat, slice_flatten shaped.uniform inside]
    exact Array.getElem?_eq_getElem ..
  · rename_i outside
    apply Array.getElem?_eq_none
    rw [shaped.size]
    exact Nat.not_lt.1 outside

theorem rowSize_flat (p : Perceptron) : p.flat.rowSize = p.config.historyLength + 1 := rfl

theorem Shaped.row?_flat (shaped : p.Shaped) (addressable : p.config.Addressable)
    (fits : (i.toNat + 1) * (p.config.historyLength.toNat + 1) < UInt64.size) :
    p.flat.row? i = p.weights? i.toNat := by
  have first := addressable.toNat_first fits
  have stop := addressable.toNat_stop fits
  have order : i * (p.config.historyLength + 1) ≤
      i * (p.config.historyLength + 1) + (p.config.historyLength + 1) := by
    rw [UInt64.le_iff_toNat_le, first, stop]
    exact Nat.le_add_right _ _
  have within : i.toNat * (p.config.historyLength.toNat + 1) + (p.config.historyLength.toNat + 1) ≤
      p.flat.table.size ↔ i.toNat < p.config.numPerceptrons.toNat := by
    rw [shaped.size_flat, ← Nat.succ_mul]
    exact Nat.mul_le_mul_right_iff (Nat.succ_pos _)
  rw [FlatPerceptron.row?, FlatPerceptron.slice?, rowSize_flat, first, stop,
    shaped.weights?_eq_slice, Array.toList_extract, List.extract_eq_take_drop,
    Nat.add_sub_cancel_left]
  simp only [order, within, true_and]

theorem Shaped.weights?_flat (shaped : p.Shaped) (addressable : p.config.Addressable)
    (fits : (i.toNat + 1) * (p.config.historyLength.toNat + 1) < UInt64.size) :
    p.flat.weights? i = p.weights? i.toNat := by
  have first : i.toNat * p.flat.rowSize.toNat < UInt64.size := by
    rw [rowSize_flat, addressable.toNat_width]
    exact Nat.lt_of_le_of_lt (Nat.mul_le_mul_right _ (Nat.le_succ _)) fits
  rw [FlatPerceptron.weights?, if_pos first, shaped.row?_flat addressable fits]

theorem Kept.range_flat (kept : Kept c p) :
    ∀ w ∈ p.flat.table, c.weightMin ≤ w ∧ w ≤ c.weightMax := by
  intro w member
  obtain ⟨row, row_mem, w_mem⟩ := List.mem_flatten.1 (Array.mem_toList_iff.2 member)
  exact kept.range row (Array.mem_toList_iff.1 row_mem) w w_mem

/-! ## Calls on the table -/

theorem Kept.toNat_index_flat (kept : Kept c p) (addressable : c.Addressable) (pc : Address) :
    (p.flat.index pc).toNat = p.index pc := by
  obtain rfl := kept.config
  exact toNat_and_pred addressable.power pc.word

theorem Kept.row?_index_flat (kept : Kept c p) (addressable : c.Addressable) (pc : Address) :
    p.flat.row? (p.flat.index pc) = some (p.row pc) := by
  have index := kept.toNat_index_flat addressable pc
  have bound := kept.index_lt addressable.power pc
  have found := kept.weights?_index addressable.power pc
  obtain rfl := kept.config
  rw [← index] at bound found
  rw [kept.shaped.row?_flat addressable (addressable.row_fits bound), found]

theorem Kept.inputs_flat (kept : Kept c p) (addressable : c.Addressable) :
    p.flat.inputs = p.inputs := by
  obtain rfl := kept.config
  rw [FlatPerceptron.inputs, rowSize_flat, addressable.toNat_width, Nat.add_sub_cancel]
  rfl

theorem Kept.output?_flat (kept : Kept c p) (addressable : c.Addressable) (pc : Address) :
    p.flat.output? pc = some (p.output pc) := by
  rw [FlatPerceptron.output?, kept.row?_index_flat addressable, kept.inputs_flat addressable]
  rfl

theorem Kept.predict?_flat (kept : Kept c p) (addressable : c.Addressable) (pc : Address) :
    p.flat.predict? pc = some (p.predict pc) := by
  rw [FlatPerceptron.predict?, kept.output?_flat addressable]
  rfl

theorem Shaped.toList_write_flat (shaped : p.Shaped) {i : Nat} (inside : i < p.rows.toList.length)
    {row : List Int} (length : row.length = p.config.historyLength.toNat + 1) :
    (FlatPerceptron.write p.flat.table (i * (p.config.historyLength.toNat + 1)) row).toList =
      (p.rows.toList.set i row).flatten := by
  have room : i * (p.config.historyLength.toNat + 1) + row.length ≤ p.flat.table.size := by
    rw [Array.length_toList, shaped.size] at inside
    rw [length, shaped.size_flat, ← Nat.succ_mul]
    exact Nat.mul_le_mul_right _ inside
  rw [FlatPerceptron.toList_write room, length, flatten_set shaped.uniform inside]
  rfl

theorem Kept.write_flat (kept : Kept c p) (addressable : c.Addressable) (e : Event) :
    FlatPerceptron.write p.flat.table (p.flat.index e.pc * p.flat.rowSize).toNat
        (adjust p.config p.inputs e.taken (p.row e.pc)) =
      (p.rows.modify (p.index e.pc) (adjust p.config p.inputs e.taken)).toList.flatten.toArray := by
  have index := kept.toNat_index_flat addressable e.pc
  have bound := kept.index_lt addressable.power e.pc
  have found := kept.weights?_index addressable.power e.pc
  obtain ⟨inside, row⟩ : ∃ inside : p.index e.pc < p.rows.toList.length,
      p.rows.toList[p.index e.pc] = p.row e.pc := Array.getElem?_eq_some_iff.1 found
  obtain rfl := kept.config
  have length : (adjust p.config p.inputs e.taken (p.row e.pc)).length =
      p.config.historyLength.toNat + 1 :=
    length_adjust p e.taken (kept.shaped.length_of_weights? found)
  have first : (p.flat.index e.pc * p.flat.rowSize).toNat =
      p.index e.pc * (p.config.historyLength.toNat + 1) := by
    rw [← index] at bound ⊢
    exact addressable.toNat_first (addressable.row_fits bound)
  apply Array.toList_inj.1
  rw [first, kept.shaped.toList_write_flat inside length, Array.toList_modify,
    List.modify_eq_set_get _ inside, List.get_eq_getElem, row]

theorem Kept.train?_flat (kept : Kept c p) (addressable : c.Addressable) (e : Event) :
    p.flat.train? e = some (p.train e).flat := by
  have found := kept.row?_index_flat addressable e.pc
  have same := kept.inputs_flat addressable
  have table : (if p.adjusts e then
      FlatPerceptron.write p.flat.table (p.flat.index e.pc * p.flat.rowSize).toNat
        (adjust p.config p.inputs e.taken (p.row e.pc))
      else p.flat.table) = (p.train e).flat.table := by
    rw [kept.write_flat addressable e]
    by_cases active : p.adjusts e
    · rw [if_pos active, flat, Perceptron.train, if_pos active]
    · rw [if_neg active, flat, flat, Perceptron.train, if_neg active]
  -- Everything but the table is the same by definition.
  simp only [FlatPerceptron.train?, found, same, Option.bind_eq_bind, Option.bind_some,
    FlatPerceptron.adjust]
  exact congrArg (fun t => some { (p.train e).flat with table := t }) table

end Perceptron

/-! ## Runs -/

namespace FlatPerceptron

def performAll? (p : FlatPerceptron) (ops : List Operation) : Option FlatPerceptron :=
  Operation.performAll (fun q e => q.bind (·.train? e)) (·.map reset) (some p) ops

theorem ofConfig_eq (c : PerceptronConfig) : ofConfig c = c.validate.map fun _ => fresh c := by
  unfold ofConfig
  cases c.validate <;> rfl

theorem ofConfig_of_validate {c : PerceptronConfig} (valid : c.validate = .ok ()) :
    ofConfig c = .ok (fresh c) := by
  rw [ofConfig_eq, map_eq_ok_iff]
  exact ⟨valid, rfl⟩

theorem of_ofConfig {c : PerceptronConfig} {p : FlatPerceptron} (built : ofConfig c = .ok p) :
    c.validate = .ok () ∧ p = fresh c := by
  rw [ofConfig_eq, map_eq_ok_iff] at built
  exact built

end FlatPerceptron

namespace Perceptron

theorem Kept.performAll?_flat (kept : Kept c p) (addressable : c.Addressable)
    (ops : List Operation) : p.flat.performAll? ops = some (p.performAll ops).flat := by
  have related : p.flat.performAll? ops = some (p.performAll ops).flat ∧
      Kept c (p.performAll ops) := by
    refine Operation.performAll_rel (R := fun q p => q = some (flat p) ∧ Kept c p) ⟨rfl, kept⟩ ?_ ?_
      ops
    · rintro _ p e ⟨rfl, kept⟩
      exact ⟨kept.train?_flat addressable e, kept.train addressable.fits e⟩
    · rintro _ p ⟨rfl, kept⟩
      exact ⟨congrArg some p.flat_reset.symm, kept.reset⟩
  exact related.1

end Perceptron

namespace FlatPerceptron

/-- As long as the extent of the table is a word, no call fails: the table keeps its extent, the
weights and the history keep their ranges, masks and bounds stay as they are, and every address
selects a row that lies in the table. -/
theorem representation_kept {c : PerceptronConfig} {p : FlatPerceptron} (built : ofConfig c = .ok p)
    (extent : c.numPerceptrons.toNat * (c.historyLength.toNat + 1) < UInt64.size)
    (ops : List Operation) :
    let rows := c.numPerceptrons.toNat
    let width := c.historyLength.toNat + 1
    ∃ q, p.performAll? ops = some q ∧ { q with table := p.table, history := p.history } = p ∧
      q.config = c ∧ q.rowSize.toNat = width ∧ q.tableMask.toNat = rows - 1 ∧
      q.historyMask.toNat = 2 ^ c.historyLength.toNat - 1 ∧
      q.weightMin = -2 ^ (c.weightBits.toNat - 1) ∧
      q.weightMax = 2 ^ (c.weightBits.toNat - 1) - 1 ∧
      q.table.size = rows * width ∧ (∀ w ∈ q.table, q.weightMin ≤ w ∧ w ≤ q.weightMax) ∧
      q.history.word.toNat < 2 ^ c.historyLength.toNat ∧
      (∀ pc, (q.index pc).toNat = pc.toNat / 4 % rows ∧ (q.index pc).toNat < rows ∧
        (∃ row, q.row? (q.index pc) = some row ∧ row.length = width) ∧
        (q.predict? pc).isSome ∧ ∀ taken, (q.train? ⟨pc, taken⟩).isSome) ∧
      ∀ i : UInt64, (i.toNat + 1) * width < UInt64.size →
        q.weights? i = (if i.toNat < rows then
          some ((q.table.toList.drop (i.toNat * width)).take width) else none) ∧
        ∀ row, q.weights? i = some row → row.length = width := by
  intro rows width
  obtain ⟨valid, rfl⟩ := of_ofConfig built
  have addressable : c.Addressable := ⟨valid, extent⟩
  obtain ⟨r, kept, reached⟩ : ∃ r, Perceptron.Kept c r ∧
      (fresh c).performAll? ops = some r.flat := by
    have start := Perceptron.kept_fresh c
    refine ⟨_, start.performAll addressable.fits ops, ?_⟩
    rw [← Perceptron.flat_fresh addressable]
    exact start.performAll?_flat addressable ops
  have positive : 0 < c.numPerceptrons.toNat :=
    Nat.zero_lt_of_lt (kept.index_lt addressable.power 0)
  have range := kept.range_flat
  have width := kept.width
  obtain rfl := kept.config
  refine ⟨r.flat, reached, rfl, rfl, addressable.toNat_width, toNat_pred positive,
    toNat_lowMask addressable.fits, ?_, ?_, kept.shaped.size_flat, range, width, ?_, ?_⟩
  · exact_mod_cast congrArg (fun n : Nat => -(n : Int)) r.config.weightBound_eq
  · exact_mod_cast congrArg (fun n : Nat => (n : Int) - 1) r.config.weightBound_eq
  · intro pc
    have index := kept.toNat_index_flat addressable pc
    have found := kept.weights?_index addressable.power pc
    refine ⟨?_, ?_, ⟨_, kept.row?_index_flat addressable pc, kept.shaped.length_of_weights? found⟩,
      ?_, ?_⟩
    · rw [index, kept.index_eq, pc.toNat_word]
    · rw [index]
      exact kept.index_lt addressable.power pc
    · rw [kept.predict?_flat addressable]
      rfl
    · intro taken
      rw [kept.train?_flat addressable]
      rfl
  · intro i fits
    have found := kept.shaped.weights?_flat addressable fits
    refine ⟨found.trans (kept.shaped.weights?_eq_slice i.toNat), fun row at_i => ?_⟩
    rw [found] at at_i
    exact kept.shaped.length_of_weights? at_i

theorem representation_kept_at_full_width :
    let c : PerceptronConfig := ⟨1, 64, 2, 0⟩
    let ops := [.train ⟨0, true⟩, .reset, .train ⟨0xffffffffffffffff, false⟩]
    ofConfig c = .ok (fresh c) ∧
      c.numPerceptrons.toNat * (c.historyLength.toNat + 1) < UInt64.size ∧
      ∃ q, (fresh c).performAll? ops = some q ∧ q.table.size = 65 ∧
        (∀ w ∈ q.table, -2 ≤ w ∧ w ≤ 1) ∧ q.weights? 1 = none := by
  intro c ops
  have valid : c.validate = .ok () := PerceptronConfig.validate_eq_ok_iff.2 (by decide)
  have built : ofConfig c = .ok (fresh c) := ofConfig_of_validate valid
  have extent : c.numPerceptrons.toNat * (c.historyLength.toNat + 1) < UInt64.size := by decide
  obtain ⟨q, reached, -, -, -, -, -, lower, upper, size, range, -, -, rows⟩ :=
    representation_kept built extent ops
  rw [lower, upper] at range
  exact ⟨built, extent, q, reached, size, range, (rows 1 (by decide)).1⟩

/-! ## Extents that wrap -/

/-- The check of a geometry does not bound the extent of its table. Where it wraps to zero the table
is empty, and neither a prediction nor a training finds its row. -/
theorem rows_missing_of_wrapped {c : PerceptronConfig} (valid : c.validate = .ok ())
    (wraps : UInt64.size ∣ c.numPerceptrons.toNat * (c.historyLength.toNat + 1)) :
    (fresh c).table.size = 0 ∧ (∀ i, (fresh c).row? i = none) ∧
      ∀ pc, (fresh c).predict? pc = none ∧ ∀ taken, (fresh c).train? ⟨pc, taken⟩ = none := by
  obtain ⟨-, ⟨-, fits⟩, -⟩ := PerceptronConfig.validate_eq_ok_iff.1 valid
  have width := PerceptronConfig.toNat_width fits
  have empty : (fresh c).table.size = 0 := by
    rw [fresh, Array.size_replicate, UInt64.toNat_mul, width]
    exact Nat.mod_eq_zero_of_dvd wraps
  have missing (i : UInt64) : (fresh c).row? i = none := by
    rw [row?, slice?, empty]
    -- A row within an empty table would begin and end at zero, but no row is empty.
    refine if_neg fun ⟨order, within⟩ => ?_
    have stop : i * (fresh c).rowSize + (fresh c).rowSize = 0 :=
      UInt64.toNat_inj.1 (Nat.le_zero.1 within)
    rw [stop, UInt64.le_iff_toNat_le] at order
    have first : i * (fresh c).rowSize = 0 := UInt64.toNat_inj.1 (Nat.le_zero.1 order)
    rw [first, UInt64.zero_add] at stop
    have none : (c.historyLength + 1).toNat = 0 := congrArg UInt64.toNat stop
    omega
  refine ⟨empty, missing, fun pc => ⟨?_, fun taken => ?_⟩⟩
  · rw [predict?, output?, missing]
    rfl
  · rw [train?, missing]
    rfl

theorem table_empty_of_wrapped_extent :
    let c : PerceptronConfig := { numPerceptrons := 0x2000000000000000 }
    ofConfig c = .ok (fresh c) ∧ (fresh c).table.size = 0 ∧ (fresh c).index 0 = 0 ∧
      (fresh c).weights? 0 = none ∧ (fresh c).predict? 0 = none ∧
      (fresh c).train? ⟨0, true⟩ = none := by
  intro c
  have valid : c.validate = .ok () := by
    refine PerceptronConfig.validate_eq_ok_iff.2 ⟨⟨61, by decide⟩, by decide, by decide⟩
  obtain ⟨empty, missing, calls⟩ := rows_missing_of_wrapped valid (by decide)
  refine ⟨ofConfig_of_validate valid, empty, by decide, ?_, (calls 0).1, (calls 0).2 true⟩
  rw [weights?, missing]
  exact ite_self none

end FlatPerceptron

end BranchSim
