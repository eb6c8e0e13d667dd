import BranchSim.Proofs.GShare.Table
import BranchSim.Proofs.Simulator.Delay
import Mathlib.Data.Finset.Max

namespace BranchSim
open scoped Finset

/-- A function takes as many values on `s` as there are places of `s` where a value comes first. -/
theorem card_image_eq_card_first {n : Nat} {β : Type} [DecidableEq β] (f : Fin n → β)
    (s : Finset (Fin n)) : #(s.image f) = #{i ∈ s | ∀ j ∈ s, j < i → f j ≠ f i} := by
  -- Each value has a least place on `s`, and two places where it comes first are the same.
  have image : s.image f = Finset.image f {i ∈ s | ∀ j ∈ s, j < i → f j ≠ f i} := by
    apply Finset.Subset.antisymm
    · intro b member
      obtain ⟨i, inside, rfl⟩ := Finset.mem_image.1 member
      obtain ⟨j, found, least⟩ := Finset.exists_min_image {k ∈ s | f k = f i} id
        ⟨i, Finset.mem_filter.2 ⟨inside, rfl⟩⟩
      obtain ⟨inside, same⟩ := Finset.mem_filter.1 found
      refine Finset.mem_image.2 ⟨j, Finset.mem_filter.2 ⟨inside, ?_⟩, same⟩
      intro k member earlier again
      exact absurd (least k (Finset.mem_filter.2 ⟨member, again.trans same⟩)) (not_le.2 earlier)
    · exact Finset.image_subset_image (Finset.filter_subset _ _)
  rw [image, Finset.card_image_of_injOn]
  intro i first j first' same
  obtain ⟨inside, first⟩ := Finset.mem_filter.1 first
  obtain ⟨inside', first'⟩ := Finset.mem_filter.1 first'
  rcases lt_trichotomy i j with before | rfl | after
  · exact absurd same (first' i inside before)
  · rfl
  · exact absurd same.symm (first j inside' after)

namespace GShare

variable {c : GShareConfig} {g : GShare} {events : List Event}

def indexAt (g : GShare) (events : List Event) (k : Fin events.length) : Nat :=
  (g.trainAll (events.take k)).index (events.get k).pc

theorem mem_outcomesAt_take {k : Fin events.length} {j : Nat} {b : Bool} :
    b ∈ g.outcomesAt j (events.take k) ↔
      ∃ i < k, g.indexAt events i = j ∧ (events.get i).taken = b := by
  have earlier (i : Nat) : i < (events.take k).length ↔ i < k := by
    rw [List.length_take]
    omega
  have index {i : Fin events.length} (before : i.val ≤ k) :
      (((events.take k).take i).foldl train g).index (events.get i).pc = g.indexAt events i := by
    rw [List.take_take, min_eq_left before]
    rfl
  rw [outcomesAt, trail_eq_map_finRange]
  simp only [List.mem_map, List.mem_filter, List.mem_finRange, true_and, decide_eq_true_eq]
  constructor
  · rintro ⟨_, ⟨⟨⟨i, inside⟩, rfl⟩, here⟩, rfl⟩
    have before := (earlier i).1 inside
    have same : (events.take k).get ⟨i, inside⟩ = events.get ⟨i, before.trans k.isLt⟩ :=
      List.getElem_take
    rw [same] at here ⊢
    exact ⟨⟨i, before.trans k.isLt⟩, before, (index before.le).symm.trans here, rfl⟩
  · rintro ⟨i, before, here, rfl⟩
    have inside := (earlier i).2 before
    have same : (events.take k).get ⟨i, inside⟩ = events.get i := List.getElem_take
    refine ⟨_, ⟨⟨⟨i, inside⟩, rfl⟩, ?_⟩, ?_⟩
    · rw [same]
      exact (index before.le).trans here
    · rw [same]

theorem prediction_eq (c : GShareConfig) (events : List Event) (k : Fin events.length) :
    (Predictor.gshare (fresh c)).prediction 0 events k =
      (((fresh c).outcomesAt ((fresh c).indexAt events k) (events.take k)).foldl
        Counter.train .initial).predict := by
  rw [Predictor.prediction, Nat.sub_zero, trainAll_gshare]
  exact congrArg Counter.predict (counter_trainAll_fresh c (events.take k) (events.get k).pc)

theorem prediction_of_first {k : Fin events.length}
    (first : ∀ i < k, (fresh c).indexAt events i ≠ (fresh c).indexAt events k) :
    (Predictor.gshare (fresh c)).prediction 0 events k = false := by
  have unused : (fresh c).outcomesAt ((fresh c).indexAt events k) (events.take k) = [] := by
    rw [List.eq_nil_iff_forall_not_mem]
    intro b member
    obtain ⟨i, before, same, -⟩ := mem_outcomesAt_take.1 member
    exact first i before same
  rw [prediction_eq, unused]
  rfl

theorem prediction_of_again {k : Fin events.length}
    (consistent : ∀ i, (fresh c).indexAt events i = (fresh c).indexAt events k →
      (events.get i).taken = (events.get k).taken)
    (again : ∃ i < k, (fresh c).indexAt events i = (fresh c).indexAt events k) :
    (Predictor.gshare (fresh c)).prediction 0 events k = (events.get k).taken := by
  have same : ∀ b ∈ (fresh c).outcomesAt ((fresh c).indexAt events k) (events.take k),
      b = (events.get k).taken := by
    intro b member
    obtain ⟨i, -, here, rfl⟩ := mem_outcomesAt_take.1 member
    exact consistent i here
  obtain ⟨i, before, here⟩ := again
  have used : (events.get i).taken ∈
      (fresh c).outcomesAt ((fresh c).indexAt events k) (events.take k) :=
    mem_outcomesAt_take.2 ⟨i, before, here, rfl⟩
  rw [prediction_eq]
  cases outcomes : (fresh c).outcomesAt ((fresh c).indexAt events k) (events.take k) with
  | nil => exact absurd (outcomes ▸ used) List.not_mem_nil
  | cons b rest =>
      rw [outcomes] at same
      obtain ⟨rfl, later⟩ := List.forall_mem_cons.1 same
      exact Counter.predict_foldl_train_of_right (Counter.predict_train_initial _) later

theorem wrong_iff_first
    (consistent : ∀ i k : Fin events.length, (fresh c).indexAt events i =
      (fresh c).indexAt events k → (events.get i).taken = (events.get k).taken)
    (k : Fin events.length) :
    (Predictor.gshare (fresh c)).prediction 0 events k ≠ (events.get k).taken ↔
      (events.get k).taken ∧ ∀ i : Fin events.length, (events.get i).taken → i < k →
        (fresh c).indexAt events i ≠ (fresh c).indexAt events k := by
  -- A counter in use is right, and one that was never used predicts not taken.
  by_cases again : ∃ i < k, (fresh c).indexAt events i = (fresh c).indexAt events k
  · rw [prediction_of_again (consistent · k) again]
    obtain ⟨i, before, same⟩ := again
    constructor
    · intro wrong
      exact absurd rfl wrong
    · rintro ⟨taken, first⟩
      exact absurd same (first i ((consistent i k same).trans taken) before)
  · have first : ∀ i < k, (fresh c).indexAt events i ≠ (fresh c).indexAt events k := by
      intro i before same
      exact again ⟨i, before, same⟩
    rw [prediction_of_first first, ne_comm, Ne, Bool.not_eq_false]
    exact ⟨fun taken => ⟨taken, fun i _ => first i⟩, And.left⟩

/-- Without interference a run without latency mispredicts the first taken branch of each counter
and nothing else. -/
theorem mispredictions_without_interference (c : GShareConfig) (valid : c.validate = .ok ())
    (general : GeneralConfig) (immediate : general.resolveLatency = 0) :
    ∃ g, ofConfig c = .ok g ∧ ∀ events : List Event,
      (∀ i k : Fin events.length, g.indexAt events i = g.indexAt events k →
        (events.get i).taken = (events.get k).taken) →
      let after := ((Simulator.ofPredictor (.gshare g) general).run events).value
      let taken : Finset (Fin events.length) := {k | (events.get k).taken}
      after.stats.wrong = #(taken.image (g.indexAt events)) ∧
        after.stats.wrong ≤ 2 ^ c.tableBits.toNat := by
  refine ⟨fresh c, ofConfig_of_validate valid, ?_⟩
  intro events consistent after taken
  have latency : (Simulator.ofPredictor (.gshare (fresh c)) general).latency = 0 := by
    rw [Simulator.latency, Simulator.ofPredictor, immediate]
    rfl
  have places : ({k | (Predictor.gshare (fresh c)).prediction 0 events k ≠ (events.get k).taken} :
      Finset (Fin events.length)) =
        {k ∈ taken | ∀ i ∈ taken, i < k →
          (fresh c).indexAt events i ≠ (fresh c).indexAt events k} := by
    ext k
    rw [Finset.mem_filter, Finset.mem_filter, wrong_iff_first consistent]
    simp [taken]
  have firsts : after.stats.wrong = #(taken.image ((fresh c).indexAt events)) := by
    have counted := Simulator.wrong_run (s := .ofPredictor (.gshare (fresh c)) general) rfl events
    rw [latency] at counted
    rw [card_image_eq_card_first, ← places]
    exact counted.trans (Nat.zero_add _)
  have inside : taken.image ((fresh c).indexAt events) ⊆ Finset.range c.tableSize := by
    intro j member
    obtain ⟨k, -, rfl⟩ := Finset.mem_image.1 member
    have bound := ((fresh c).trainAll (events.take k)).index_lt (events.get k).pc
    rw [config_trainAll] at bound
    exact Finset.mem_range.2 bound
  refine ⟨firsts, ?_⟩
  rw [firsts, ← c.tableSize_eq, ← Finset.card_range c.tableSize]
  exact Finset.card_le_card inside

theorem mispredictions_without_interference_of_alternation :
    let c : GShareConfig := ⟨3, 2⟩
    let general : GeneralConfig := ⟨true, 0⟩
    let events : List Event := [⟨4, true⟩, ⟨4, false⟩, ⟨4, true⟩, ⟨4, false⟩, ⟨4, true⟩, ⟨20, true⟩,
      ⟨20, false⟩, ⟨4, true⟩]
    c.validate = .ok () ∧ general.resolveLatency = 0 ∧
      (∀ i k : Fin events.length, (fresh c).indexAt events i = (fresh c).indexAt events k →
        (events.get i).taken = (events.get k).taken) ∧
      ((Simulator.ofPredictor (.gshare (fresh c)) general).run events).value.stats.wrong = 3 := by
  intro c general events
  have valid : c.validate = .ok () := GShareConfig.validate_eq_ok_iff.2 (by decide)
  have consistent : ∀ i k : Fin events.length,
      (fresh c).indexAt events i = (fresh c).indexAt events k →
        (events.get i).taken = (events.get k).taken := by
    decide +kernel
  obtain ⟨g, built, counted⟩ := mispredictions_without_interference c valid general rfl
  obtain rfl : fresh c = g := Except.ok.inj ((ofConfig_of_validate valid).symm.trans built)
  refine ⟨valid, rfl, consistent, (counted events consistent).1.trans ?_⟩
  decide +kernel

end GShare

end BranchSim
