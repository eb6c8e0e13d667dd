import BranchSim.Proofs.GShare.Table

namespace BranchSim.GShare

variable {c : GShareConfig}

def slot (c : GShareConfig) (past : List Event) (pc : Address) : Nat :=
  (pc.toNat / 4 ^^^ History.packed c.historyBits.toNat (past.map (·.taken))) % 2 ^ c.tableBits.toNat

/-- Where the outcomes of the events at slot `j`, in their order, take a number from `1`. -/
def walk (c : GShareConfig) (events : List Event) (j : Nat) : Nat :=
  let hits := (List.finRange events.length).filter fun k : Fin events.length =>
    slot c (events.take k) (events.get k).pc = j
  hits.foldl (fun v k => Counter.saturate v (events.get k).taken) 1

theorem index_trainAll_fresh (fits : c.historyBits.toNat ≤ History.maxWidth) (events : List Event)
    (pc : Address) : ((fresh c).trainAll events).index pc = slot c events pc := by
  rw [index, config_trainAll, history_trainAll, UInt64.toNat_xor, pc.toNat_word, slot,
    ← c.tableSize_eq, ← History.toNat_pushAll_empty fits]
  rfl

theorem walk_eq (fits : c.historyBits.toNat ≤ History.maxWidth) (events : List Event) (j : Nat) :
    walk c events j = ((fresh c).outcomesAt j events).foldl Counter.saturate 1 := by
  have position (k : Fin events.length) :
      ((events.take k).foldl train (fresh c)).index (events.get k).pc =
        slot c (events.take k) (events.get k).pc :=
    index_trainAll_fresh fits _ _
  rw [outcomesAt, trail_eq_map_finRange, List.filter_map, List.map_map, List.foldl_map, walk]
  simp only [Function.comp_def, position]

/-- A new predictor exists for every valid configuration, and after any stream each of its counters
is where the walk at its index ends, and decides the predictions of the addresses there. -/
theorem predict_eq_walk (c : GShareConfig) (valid : c.validate = .ok ()) :
    ∃ g, ofConfig c = .ok g ∧ ∀ events,
      let q := g.trainAll events
      (∀ pc, q.index pc = slot c events pc ∧ q.index pc < q.counters.size ∧
        q.predict pc = decide (2 ≤ walk c events (slot c events pc))) ∧
      q.counters.size = 2 ^ c.tableBits.toNat ∧
      ∀ j (inside : j < q.counters.size),
        q.counters[j].toNat = walk c events j ∧ q.counters[j].toNat ≤ 3 := by
  refine ⟨fresh c, ofConfig_of_validate valid, ?_⟩
  intro events q
  obtain ⟨-, -, fits⟩ := GShareConfig.validate_eq_ok_iff.1 valid
  have size : q.counters.size = c.tableSize := size_trainAll_fresh c events
  have index (pc : Address) : q.index pc = slot c events pc := index_trainAll_fresh fits events pc
  refine ⟨fun pc => ⟨index pc, ?_, ?_⟩, size.trans c.tableSize_eq, fun j inside => ⟨?_, ?_⟩⟩
  · rw [index, size, c.tableSize_eq]
    exact Nat.mod_lt _ (Nat.two_pow_pos _)
  · have counter : q.counter pc = _ := counter_trainAll_fresh c events pc
    rw [predict, counter, Counter.predict_eq, Counter.toNat_foldl_train, walk_eq fits, ← index pc]
    rfl
  · have at_j := counters_trainAll_fresh c events (size ▸ inside)
    obtain ⟨_, same⟩ := Array.getElem?_eq_some_iff.1 at_j
    rw [walk_eq fits, same, Counter.toNat_foldl_train]
    rfl
  · exact Counter.toNat_le _

theorem predict_eq_walk_of_wide_history :
    let c : GShareConfig := ⟨2, 3⟩
    let events : List Event := [⟨4, true⟩, ⟨0, true⟩, ⟨12, true⟩, ⟨4, false⟩, ⟨8, true⟩, ⟨12, true⟩,
      ⟨8, false⟩]
    c.validate = .ok () ∧ walk c events 1 = 2 ∧ walk c events 3 = 1 ∧
      ∃ g, ofConfig c = .ok g ∧ (g.trainAll events).counters.size = 4 ∧
        (g.trainAll events).predict 12 = true ∧ (g.trainAll events).predict 4 = false := by
  intro c events
  have valid : c.validate = .ok () := GShareConfig.validate_eq_ok_iff.2 (by decide)
  obtain ⟨g, built, told⟩ := predict_eq_walk c valid
  obtain ⟨predict, size, -⟩ := told events
  refine ⟨valid, ?_, ?_, g, built, size, (predict 12).2.2.trans ?_, (predict 4).2.2.trans ?_⟩
  all_goals decide +kernel

end BranchSim.GShare
