import BranchSim.Proofs.Config.Geometry
import BranchSim.Proofs.History
import BranchSim.Proofs.Predictor.Reset
import BranchSim.Proofs.Trail

namespace BranchSim

namespace Counter

/-- One step of a counter that is kept as a number from `0` to `3`. -/
def saturate (v : Nat) (taken : Bool) : Nat :=
  if taken then min (v + 1) 3 else v - 1

theorem toNat_train (c : Counter) (taken : Bool) :
    (c.train taken).toNat = saturate c.toNat taken := by
  cases c <;> cases taken <;> rfl

theorem toNat_foldl_train (c : Counter) (outcomes : List Bool) :
    (outcomes.foldl train c).toNat = outcomes.foldl saturate c.toNat := by
  induction outcomes generalizing c with
  | nil => rfl
  | cons taken outcomes ih => rw [List.foldl_cons, List.foldl_cons, ih, toNat_train]

theorem toNat_le (c : Counter) : c.toNat ≤ 3 := by
  cases c <;> decide

theorem predict_eq (c : Counter) : c.predict = decide (2 ≤ c.toNat) := by
  cases c <;> rfl

theorem predict_train_of_right {c : Counter} {taken : Bool} (right : c.predict = taken) :
    (c.train taken).predict = taken := by
  subst right
  cases c <;> rfl

theorem predict_train_initial (taken : Bool) : (initial.train taken).predict = taken := by
  cases taken <;> rfl

theorem predict_foldl_train_of_right {c : Counter} {taken : Bool} (right : c.predict = taken)
    {outcomes : List Bool} (same : ∀ b ∈ outcomes, b = taken) :
    (outcomes.foldl train c).predict = taken := by
  induction outcomes generalizing c with
  | nil => exact right
  | cons b outcomes ih =>
      obtain ⟨rfl, same⟩ := List.forall_mem_cons.1 same
      exact ih (predict_train_of_right right) same

end Counter

namespace GShare

variable {c : GShareConfig} {g : GShare}

def trainAll (g : GShare) (events : List Event) : GShare :=
  events.foldl train g

theorem trainAll_concat (g : GShare) (es : List Event) (e : Event) :
    g.trainAll (es ++ [e]) = (g.trainAll es).train e :=
  List.foldl_append ..

@[simp] theorem config_trainAll (g : GShare) (es : List Event) :
    (g.trainAll es).config = g.config := by
  induction es generalizing g with
  | nil => rfl
  | cons e es ih => exact ih (g.train e)

theorem history_trainAll (g : GShare) (es : List Event) :
    (g.trainAll es).history =
      g.history.pushAll g.config.historyBits.toNat (es.map (·.taken)) := by
  induction es generalizing g with
  | nil => rfl
  | cons e es ih => exact ih (g.train e)

theorem trainAll_gshare (g : GShare) (es : List Event) :
    (Predictor.gshare g).trainAll es = .gshare (g.trainAll es) := by
  induction es generalizing g with
  | nil => rfl
  | cons e es ih => exact ih (g.train e)

theorem testBit_index (g : GShare) (pc : Address) (i : Nat) :
    (g.index pc).testBit i =
      (decide (i < g.config.tableBits.toNat) &&
        (pc.word.toNat.testBit i ^^ g.history.outcome i)) := by
  rw [index, g.config.tableSize_eq, Nat.testBit_mod_two_pow, UInt64.toNat_xor, Nat.testBit_xor]
  rfl

theorem counters_train (g : GShare) (e : Event) (j : Nat) :
    (g.train e).counters[j]? =
      if g.index e.pc = j then g.counters[j]?.map (·.train e.taken) else g.counters[j]? :=
  Array.getElem?_modify ..

def outcomesAt (g : GShare) (j : Nat) (events : List Event) : List Bool :=
  ((trail train g events).filter fun x => x.1.index x.2.pc = j).map (·.2.taken)

theorem outcomesAt_concat (g : GShare) (j : Nat) (es : List Event) (e : Event) :
    g.outcomesAt j (es ++ [e]) =
      g.outcomesAt j es ++ if (g.trainAll es).index e.pc = j then [e.taken] else [] := by
  have last : trail train (g.trainAll es) [e] = [(g.trainAll es, e)] := rfl
  rw [outcomesAt, trail_append, List.filter_append, List.map_append, outcomesAt]
  change _ ++ List.map _ (List.filter _ (trail train (g.trainAll es) [e])) = _
  rw [last]
  split
  · rename_i here
    simp [here]
  · rename_i other
    simp [other]

theorem counters_trainAll (g : GShare) (events : List Event) (j : Nat) :
    (g.trainAll events).counters[j]? =
      g.counters[j]?.map fun c => (g.outcomesAt j events).foldl Counter.train c := by
  induction events using List.reverseRecOn with
  | nil => exact (Option.map_id' ..).symm
  | append_singleton es e ih =>
      rw [trainAll_concat, counters_train, outcomesAt_concat, ih]
      split
      · rw [Option.map_map]
        simp only [List.foldl_append]
        rfl
      · rw [List.append_nil]

def Sized (g : GShare) : Prop :=
  g.counters.size = g.config.tableSize

theorem sized_fresh (c : GShareConfig) : (fresh c).Sized :=
  Array.size_replicate

theorem Sized.train (sized : g.Sized) (e : Event) : (g.train e).Sized :=
  Array.size_modify.trans sized

theorem Sized.reset (sized : g.Sized) : g.reset.Sized :=
  Array.size_map.trans sized

theorem Sized.trainAll (sized : g.Sized) (es : List Event) : (g.trainAll es).Sized := by
  induction es generalizing g with
  | nil => exact sized
  | cons e es ih => exact ih (sized.train e)

theorem ofConfig_of_validate (valid : c.validate = .ok ()) : ofConfig c = .ok (fresh c) := by
  rw [ofConfig_eq, map_eq_ok_iff]
  exact ⟨valid, rfl⟩

theorem of_ofConfig (built : ofConfig c = .ok g) : c.validate = .ok () ∧ g = fresh c := by
  rw [ofConfig_eq, map_eq_ok_iff] at built
  exact built

theorem index_lt (g : GShare) (pc : Address) : g.index pc < g.config.tableSize := by
  apply Nat.mod_lt
  rw [g.config.tableSize_eq]
  exact Nat.two_pow_pos _

theorem counters_fresh (c : GShareConfig) {j : Nat} (inside : j < c.tableSize) :
    (fresh c).counters[j]? = some .initial := by
  rw [fresh, Array.getElem?_replicate, if_pos inside]

theorem counters_trainAll_fresh (c : GShareConfig) (events : List Event) {j : Nat}
    (inside : j < c.tableSize) :
    ((fresh c).trainAll events).counters[j]? =
      some (((fresh c).outcomesAt j events).foldl Counter.train .initial) := by
  rw [counters_trainAll, counters_fresh c inside, Option.map_some]

theorem size_trainAll_fresh (c : GShareConfig) (events : List Event) :
    ((fresh c).trainAll events).counters.size = c.tableSize := by
  have sized := (sized_fresh c).trainAll events
  rw [Sized, config_trainAll] at sized
  exact sized

theorem counter_trainAll_fresh (c : GShareConfig) (events : List Event) (pc : Address) :
    let g := (fresh c).trainAll events
    g.counter pc = ((fresh c).outcomesAt (g.index pc) events).foldl Counter.train .initial := by
  intro g
  have config : g.config = c := config_trainAll ..
  have inside : g.index pc < c.tableSize := config ▸ g.index_lt pc
  rw [counter, counters_trainAll_fresh c events inside, Option.getD_some]

end GShare

end BranchSim
