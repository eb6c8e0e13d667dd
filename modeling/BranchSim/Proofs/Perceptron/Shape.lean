import BranchSim.Perceptron
import BranchSim.Proofs.Config.Geometry

namespace BranchSim

@[simp] theorem History.length_signs (h : History) (width : Nat) :
    (h.signs width).length = width := by
  simp [signs]

namespace Perceptron

structure Shaped (p : Perceptron) : Prop where
  size : p.rows.size = p.config.numPerceptrons.toNat
  length : ∀ row ∈ p.rows, row.length = p.config.historyLength.toNat + 1

@[simp] theorem length_inputs (p : Perceptron) :
    p.inputs.length = p.config.historyLength.toNat + 1 := by
  simp [inputs]

theorem inputs_units (p : Perceptron) : ∀ v ∈ p.inputs, v = 1 ∨ v = -1 := by
  intro v member
  rcases List.mem_cons.1 member with rfl | member
  · exact .inl rfl
  · obtain ⟨i, -, rfl⟩ := List.mem_map.1 member
    split
    · exact .inl rfl
    · exact .inr rfl

theorem length_adjust (p : Perceptron) (taken : Bool) {row : List Int}
    (length : row.length = p.config.historyLength.toNat + 1) :
    (adjust p.config p.inputs taken row).length = p.config.historyLength.toNat + 1 := by
  simp [adjust, length]

theorem weights?_train (p : Perceptron) (e : Event) (r : Nat) :
    (p.train e).weights? r =
      if p.index e.pc = r ∧ p.adjusts e then
        (p.weights? r).map (adjust p.config p.inputs e.taken)
      else p.weights? r := by
  unfold weights? train
  by_cases active : p.adjusts e
  · rw [if_pos active, Array.getElem?_modify]
    by_cases here : p.index e.pc = r
    · rw [if_pos here, if_pos ⟨here, active⟩]
    · rw [if_neg here, if_neg fun both => here both.1]
  · rw [if_neg active, if_neg fun both => active both.2]

theorem row_train (p : Perceptron) (e : Event) (pc : Address) :
    (p.train e).row pc =
      if p.index e.pc = p.index pc ∧ p.adjusts e then adjust p.config p.inputs e.taken (p.row pc)
      else p.row pc := by
  have changed := p.weights?_train e (p.index pc)
  have same : (p.train e).index pc = p.index pc := rfl
  rw [row, row, same, changed]
  split
  · cases p.weights? (p.index pc) with
    | none => rfl
    | some before => rfl
  · rfl

theorem rows_train {p : Perceptron} {e : Event} {f : List Int → List Int}
    (same : p.adjusts e → adjust p.config p.inputs e.taken (p.row e.pc) = f (p.row e.pc)) :
    (p.train e).rows = if p.adjusts e then p.rows.modify (p.index e.pc) f else p.rows := by
  unfold train
  split
  · rename_i active
    have row := same active
    apply Array.ext_getElem?
    intro r
    rw [Array.getElem?_modify, Array.getElem?_modify]
    split
    · rename_i here
      subst here
      rw [Perceptron.row, weights?] at row
      cases at_r : p.rows[p.index e.pc]? with
      | none => rfl
      | some before =>
          rw [at_r] at row
          exact congrArg some row
    · rfl
  · rfl

theorem mem_rows_train {p : Perceptron} {e : Event} {row : List Int}
    (member : row ∈ (p.train e).rows) :
    row ∈ p.rows ∨ ∃ before ∈ p.rows, row = adjust p.config p.inputs e.taken before := by
  obtain ⟨r, at_r⟩ := Array.mem_iff_getElem?.1 member
  have changed := weights?_train p e r
  rw [weights?, at_r] at changed
  split at changed
  · obtain ⟨before, at_before, rfl⟩ := Option.map_eq_some_iff.1 changed.symm
    exact .inr ⟨before, Array.mem_of_getElem? at_before, rfl⟩
  · exact .inl (Array.mem_of_getElem? changed.symm)

theorem ofConfig_eq (c : PerceptronConfig) : ofConfig c = c.validate.map fun _ => fresh c := by
  unfold ofConfig
  cases c.validate <;> rfl

theorem ofConfig_of_validate {c : PerceptronConfig} (valid : c.validate = .ok ()) :
    ofConfig c = .ok (fresh c) := by
  rw [ofConfig_eq, map_eq_ok_iff]
  exact ⟨valid, rfl⟩

theorem of_ofConfig {c : PerceptronConfig} {p : Perceptron} (built : ofConfig c = .ok p) :
    c.validate = .ok () ∧ p = fresh c := by
  rw [ofConfig_eq, map_eq_ok_iff] at built
  exact built

theorem weights?_fresh (c : PerceptronConfig) {r : Nat} (row : r < c.numPerceptrons.toNat) :
    (fresh c).weights? r = some (List.replicate (c.historyLength.toNat + 1) 0) := by
  rw [weights?, fresh, Array.getElem?_replicate, if_pos row]

theorem shaped_fresh (c : PerceptronConfig) : (fresh c).Shaped where
  size := Array.size_replicate
  length := by
    intro row member
    obtain ⟨-, rfl⟩ := Array.mem_replicate.1 member
    exact List.length_replicate

theorem Shaped.length_of_weights? {p : Perceptron} (shaped : p.Shaped) {r : Nat} {row : List Int}
    (at_r : p.weights? r = some row) : row.length = p.config.historyLength.toNat + 1 :=
  shaped.length row (Array.mem_of_getElem? at_r)

theorem Shaped.train {p : Perceptron} (shaped : p.Shaped) (e : Event) : (p.train e).Shaped where
  size := by
    have size := shaped.size
    unfold Perceptron.train
    split
    · rw [Array.size_modify]
      exact size
    · exact size
  length := by
    intro row member
    rcases mem_rows_train member with same | ⟨before, source, rfl⟩
    · exact shaped.length row same
    · exact length_adjust p e.taken (shaped.length before source)

theorem Shaped.reset_eq_fresh {p : Perceptron} (shaped : p.Shaped) : p.reset = fresh p.config := by
  have rows : p.rows.map (·.map fun _ => (0 : Int)) =
      Array.replicate p.config.numPerceptrons.toNat
        (List.replicate (p.config.historyLength.toNat + 1) 0) := by
    rw [Array.eq_replicate_iff]
    constructor
    · rw [Array.size_map, shaped.size]
    · intro row member
      obtain ⟨before, at_before, rfl⟩ := Array.mem_map.1 member
      rw [List.map_const', shaped.length before at_before]
  rw [reset, fresh, rows]

theorem Shaped.reset {p : Perceptron} (shaped : p.Shaped) : p.reset.Shaped := by
  rw [shaped.reset_eq_fresh]
  exact shaped_fresh p.config

theorem Shaped.reset_train {p : Perceptron} (shaped : p.Shaped) (e : Event) :
    (p.train e).reset = p.reset := by
  rw [(shaped.train e).reset_eq_fresh, shaped.reset_eq_fresh]
  rfl

theorem Shaped.reset_reset {p : Perceptron} (shaped : p.Shaped) : p.reset.reset = p.reset := by
  rw [shaped.reset.reset_eq_fresh, shaped.reset_eq_fresh]
  rfl

def trainAll (p : Perceptron) (events : List Event) : Perceptron :=
  events.foldl train p

theorem trainAll_concat (p : Perceptron) (es : List Event) (e : Event) :
    p.trainAll (es ++ [e]) = (p.trainAll es).train e :=
  List.foldl_append ..

theorem trainAll_append (p : Perceptron) (es fs : List Event) :
    p.trainAll (es ++ fs) = (p.trainAll es).trainAll fs :=
  List.foldl_append ..

@[simp] theorem config_trainAll (p : Perceptron) (es : List Event) :
    (p.trainAll es).config = p.config := by
  induction es generalizing p with
  | nil => rfl
  | cons e es ih => exact ih (p.train e)

theorem Shaped.trainAll {p : Perceptron} (shaped : p.Shaped) (es : List Event) :
    (p.trainAll es).Shaped := by
  induction es generalizing p with
  | nil => exact shaped
  | cons e es ih => exact ih (shaped.train e)

end Perceptron

end BranchSim
