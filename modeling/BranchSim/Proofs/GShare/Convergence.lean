import BranchSim.Proofs.GShare.Table

namespace BranchSim

theorem Counter.predict_train_train (c : Counter) (taken : Bool) :
    ((c.train taken).train taken).predict = taken := by
  cases c <;> cases taken <;> rfl

theorem Counter.predict_foldl_train_replicate (c : Counter) {n : Nat} (twice : 2 ≤ n)
    (taken : Bool) : ((List.replicate n taken).foldl train c).predict = taken := by
  obtain ⟨m, rfl⟩ := Nat.exists_eq_add_of_le twice
  rw [List.replicate_add, List.foldl_append]
  apply predict_foldl_train_of_right (c.predict_train_train taken)
  intro b member
  exact List.eq_of_mem_replicate member

namespace GShare

variable {c : GShareConfig} {g : GShare} {e : Event} {m n : Nat}

/-- So many repetitions of an outcome determine what an index reads of the history. -/
def settling (c : GShareConfig) : Nat :=
  min c.tableBits.toNat c.historyBits.toNat

theorem index_trainAll_replicate (valid : g.config.validate = .ok ()) (long : settling g.config ≤ n)
    (e : Event) (pc : Address) :
    (g.trainAll (List.replicate n e)).index pc =
      (g.trainAll (List.replicate (settling g.config) e)).index pc := by
  obtain ⟨-, positive, fits⟩ := GShareConfig.validate_eq_ok_iff.1 valid
  apply Nat.eq_of_testBit_eq
  intro i
  rw [testBit_index, testBit_index, config_trainAll, config_trainAll, history_trainAll,
    history_trainAll, List.map_replicate, List.map_replicate]
  by_cases inside : i < g.config.tableBits.toNat
  · have enough : settling g.config ≤ settling g.config := le_rfl
    rw [g.history.outcome_pushAll_replicate positive fits long inside,
      g.history.outcome_pushAll_replicate positive fits enough inside]
  · rw [decide_eq_false inside, Bool.false_and, Bool.false_and]

theorem counters_trainAll_replicate (valid : g.config.validate = .ok ()) (e : Event) (m : Nat) :
    let settled := g.trainAll (List.replicate (settling g.config) e)
    (g.trainAll (List.replicate (settling g.config + m) e)).counters[settled.index e.pc]? =
      settled.counters[settled.index e.pc]?.map fun v =>
        (List.replicate m e.taken).foldl Counter.train v := by
  intro settled
  induction m with
  | zero => exact (Option.map_id' ..).symm
  | succ m ih =>
      have index := index_trainAll_replicate valid (Nat.le_add_right (settling g.config) m) e e.pc
      rw [← Nat.add_assoc, List.replicate_succ', trainAll_concat, counters_train, if_pos index, ih,
        Option.map_map, List.replicate_succ']
      simp only [List.foldl_append]
      rfl

theorem Sized.predict_trainAll_replicate (sized : g.Sized) (valid : g.config.validate = .ok ())
    (long : settling g.config + 2 ≤ n) (e : Event) :
    (g.trainAll (List.replicate n e)).predict e.pc = e.taken := by
  obtain ⟨m, rfl⟩ : ∃ m, n = settling g.config + m := Nat.exists_eq_add_of_le (by omega)
  let settled := g.trainAll (List.replicate (settling g.config) e)
  have index : (g.trainAll (List.replicate (settling g.config + m) e)).index e.pc =
      settled.index e.pc :=
    index_trainAll_replicate valid (Nat.le_add_right ..) e e.pc
  have inside : settled.index e.pc < settled.counters.size := by
    rw [sized.trainAll]
    exact settled.index_lt e.pc
  have trained : (g.trainAll (List.replicate (settling g.config + m) e)).counters[
      settled.index e.pc]? = settled.counters[settled.index e.pc]?.map _ :=
    counters_trainAll_replicate valid e m
  rw [Array.getElem?_eq_getElem inside, Option.map_some] at trained
  rw [predict, counter, index, trained, Option.getD_some]
  exact Counter.predict_foldl_train_replicate _ (by omega) e.taken

def performAll (g : GShare) (ops : List Predictor.Operation) : GShare :=
  Predictor.Operation.performAll train reset g ops

@[simp] theorem config_performAll (g : GShare) (ops : List Predictor.Operation) :
    (g.performAll ops).config = g.config := by
  refine Predictor.Operation.performAll_preserves (P := fun q : GShare => q.config = g.config)
    rfl ?_ ?_ ops
  · exact fun _ same => same
  · exact fun same => same

theorem Sized.performAll (sized : g.Sized) (ops : List Predictor.Operation) :
    (g.performAll ops).Sized :=
  Predictor.Operation.performAll_preserves sized (fun e sized => sized.train e) Sized.reset ops

/-- From every state that training and resets can reach, a branch that repeats its outcome is
predicted right as soon as its index has settled and its counter has taken two steps. -/
theorem repeated_outcome_predicted (c : GShareConfig) (valid : c.validate = .ok ()) :
    ∃ g, ofConfig c = .ok g ∧ ∀ (ops : List Predictor.Operation) (e : Event) (n : Nat),
      min c.tableBits.toNat c.historyBits.toNat + 2 ≤ n →
        ((g.performAll ops).trainAll (List.replicate n e)).predict e.pc = e.taken := by
  refine ⟨fresh c, ofConfig_of_validate valid, fun ops e n long => ?_⟩
  have config : ((fresh c).performAll ops).config = c := config_performAll ..
  apply ((sized_fresh c).performAll ops).predict_trainAll_replicate
  · rw [config]
    exact valid
  · rw [config]
    exact long

theorem repeated_outcome_predicted_not_before :
    let c : GShareConfig := ⟨1, 1⟩
    let q := (fresh c).performAll [.train ⟨0, true⟩, .reset, .train ⟨4, false⟩]
    c.validate = .ok () ∧ min c.tableBits.toNat c.historyBits.toNat + 2 = 3 ∧
      (q.trainAll (List.replicate 2 ⟨0, true⟩)).predict 0 = false ∧
      (q.trainAll (List.replicate 3 ⟨0, true⟩)).predict 0 = true := by
  intro c q
  have valid : c.validate = .ok () := GShareConfig.validate_eq_ok_iff.2 (by decide)
  obtain ⟨g, built, right⟩ := repeated_outcome_predicted c valid
  obtain rfl : fresh c = g := Except.ok.inj ((ofConfig_of_validate valid).symm.trans built)
  refine ⟨valid, by decide, by decide +kernel, ?_⟩
  exact right [.train ⟨0, true⟩, .reset, .train ⟨4, false⟩] ⟨0, true⟩ 3 (by decide)

end GShare

end BranchSim
