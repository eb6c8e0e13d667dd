import BranchSim.Proofs.Predictor.Reset
import BranchSim.Proofs.Statistics
import BranchSim.Proofs.Trail
import BranchSim.Simulator

/-!
# Resolution

What the simulator has learned and counted, told from the branches it has resolved.

* `Resolved p base bs s`: since the predictor was `p` and the statistics were `base`, the branches
  `bs` have resolved, in that order, and nothing else has touched either.
* `Tracks p base bs s`: the branches `bs` have been fetched since then, and those that have not
  resolved are the ones in flight.

Every operation but a reset keeps `Tracks`; a fetch extends its list at the end.
-/

namespace BranchSim

theorem Window.eq_empty_of_toList {α : Type} {w : Window α} (nothing : w.toList = []) :
    w = .empty := by
  obtain ⟨front, back, size, size_eq⟩ := w
  obtain ⟨rfl, reversed⟩ := List.append_eq_nil_iff.1 nothing
  obtain rfl := List.reverse_eq_nil_iff.1 reversed
  subst size_eq
  rfl

/-- How many of the branches have another prediction when they resolve than when they were
fetched, if `p` is the predictor that resolves the first of them. -/
def Predictor.divergences (p : Predictor) (bs : List Fetched) : Nat :=
  (trail (fun q b => q.train b.event) p bs).countP fun x =>
    x.1.predict x.2.event.pc != x.2.predicted

theorem Predictor.divergences_concat (p : Predictor) (bs : List Fetched) (b : Fetched) :
    p.divergences (bs ++ [b]) = p.divergences bs +
      ((p.trainAll (bs.map (·.event))).predict b.event.pc != b.predicted).toNat := by
  unfold divergences
  rw [trail_append, List.countP_append, trainAll, List.foldl_map]
  simp only [trail, List.countP_singleton]
  cases (bs.foldl (fun q b => q.train b.event) p).predict b.event.pc != b.predicted
  · rfl
  · rfl

namespace Simulator

structure Resolved (p : Predictor) (base : Stats) (bs : List Fetched) (s : Simulator) : Prop where
  predictor : s.predictor = p.trainAll (bs.map (·.event))
  stats : s.stats = { base.recordAll bs with divergent := base.divergent + p.divergences bs }

theorem Resolved.nil (s : Simulator) : Resolved s.predictor s.stats [] s :=
  ⟨rfl, rfl⟩

variable {p : Predictor} {base : Stats} {bs : List Fetched} {s : Simulator}

theorem Resolved.with_window (resolved : Resolved p base bs s) (w : Window Fetched) :
    Resolved p base bs { s with window := w } :=
  ⟨resolved.predictor, resolved.stats⟩

theorem Resolved.resolve (resolved : Resolved p base bs s) (b : Fetched) :
    Resolved p base (bs ++ [b]) (s.resolve b).value where
  predictor := by
    rw [List.map_append, Predictor.trainAll_append, ← resolved.predictor]
    rfl
  stats := by
    rw [Predictor.divergences_concat, Stats.recordAll_append, ← resolved.predictor, ← Nat.add_assoc]
    simp only [Simulator.resolve, resolved.stats]
    rfl

@[simp] theorem general_resolveOldest (s : Simulator) :
    s.resolveOldest.value.general = s.general := by
  unfold resolveOldest
  cases s.window.pop? with
  | none => rfl
  | some popped => rfl

theorem window_resolveOldest (s : Simulator) :
    s.resolveOldest.value.window.toList = s.window.toList.tail := by
  unfold resolveOldest
  cases popped : s.window.pop? with
  | none =>
      rw [Window.pop?_eq_none popped]
      exact Window.pop?_eq_none popped
  | some result =>
      obtain ⟨b, w⟩ := result
      rw [Window.toList_of_pop? popped]
      rfl

theorem Resolved.resolveOldest (resolved : Resolved p base bs s) :
    Resolved p base (bs ++ s.window.toList.take 1) s.resolveOldest.value := by
  unfold Simulator.resolveOldest
  cases popped : s.window.pop? with
  | none =>
      rw [Window.pop?_eq_none popped, List.take_nil, List.append_nil]
      exact resolved
  | some result =>
      obtain ⟨b, w⟩ := result
      rw [Window.toList_of_pop? popped]
      exact (resolved.with_window w).resolve b

@[simp] theorem general_resolveOldestN (n : Nat) (s : Simulator) :
    (resolveOldestN n s).value.general = s.general := by
  induction n generalizing s with
  | zero => rfl
  | succ n ih =>
      rw [resolveOldestN, Recorded.value_bind, ih, general_resolveOldest]

theorem window_resolveOldestN (n : Nat) (s : Simulator) :
    (resolveOldestN n s).value.window.toList = s.window.toList.drop n := by
  induction n generalizing s with
  | zero => rfl
  | succ n ih =>
      rw [resolveOldestN, Recorded.value_bind, ih, window_resolveOldest, List.drop_tail]

theorem Resolved.resolveOldestN (resolved : Resolved p base bs s) (n : Nat) :
    Resolved p base (bs ++ s.window.toList.take n) (resolveOldestN n s).value := by
  induction n generalizing bs s with
  | zero =>
      rw [List.take_zero, List.append_nil]
      exact resolved
  | succ n ih =>
      have later := ih resolved.resolveOldest
      rw [window_resolveOldest, List.append_assoc] at later
      have split : s.window.toList.take 1 ++ s.window.toList.tail.take n =
          s.window.toList.take (n + 1) := by
        cases s.window.toList with
        | nil => simp
        | cons b rest => rfl
      rw [split] at later
      exact later

def fetched (s : Simulator) (e : Event) : Fetched :=
  ⟨e, s.predictor.predict e.pc⟩

def Tracks (p : Predictor) (base : Stats) (bs : List Fetched) (s : Simulator) : Prop :=
  ∃ resolved, bs = resolved ++ s.window.toList ∧ Resolved p base resolved s

theorem Tracks.nil {s : Simulator} (empty : s.window = .empty) :
    Tracks s.predictor s.stats [] s := by
  refine ⟨[], ?_, .nil s⟩
  rw [empty]
  rfl

theorem Tracks.resolveOldestN (tracks : Tracks p base bs s) (n : Nat) :
    Tracks p base bs (resolveOldestN n s).value := by
  obtain ⟨resolved, rfl, holds⟩ := tracks
  refine ⟨resolved ++ s.window.toList.take n, ?_, holds.resolveOldestN n⟩
  rw [window_resolveOldestN, List.append_assoc, List.take_append_drop]

theorem Tracks.step (tracks : Tracks p base bs s) (e : Event) :
    Tracks p base (bs ++ [s.fetched e]) (s.step e).value := by
  obtain ⟨resolved, rfl, holds⟩ := tracks
  apply Tracks.resolveOldestN
  refine ⟨resolved, ?_, holds.with_window _⟩
  rw [Window.toList_push, List.append_assoc]
  rfl

theorem Tracks.drain (tracks : Tracks p base bs s) : Tracks p base bs s.drain.value :=
  tracks.resolveOldestN _

@[simp] theorem general_step (s : Simulator) (e : Event) :
    (s.step e).value.general = s.general :=
  general_resolveOldestN ..

@[simp] theorem general_drain (s : Simulator) : s.drain.value.general = s.general :=
  general_resolveOldestN ..

theorem window_step (s : Simulator) (e : Event) :
    (s.step e).value.window.toList =
      (s.window.toList ++ [s.fetched e]).drop (s.window.toList.length + 1 - s.latency) := by
  unfold step
  rw [window_resolveOldestN, Window.size_eq_length, Window.toList_push, List.length_append]
  rfl

theorem length_window_step (s : Simulator) (e : Event) :
    (s.step e).value.window.toList.length = min (s.window.toList.length + 1) s.latency := by
  rw [window_step, List.length_drop, List.length_append, List.length_singleton]
  omega

theorem window_drain (s : Simulator) : s.drain.value.window = .empty := by
  apply Window.eq_empty_of_toList
  unfold drain
  rw [window_resolveOldestN, Window.size_eq_length, List.drop_length]

theorem Tracks.resolved_drain (tracks : Tracks p base bs s) : Resolved p base bs s.drain.value := by
  obtain ⟨resolved, all, holds⟩ := tracks.drain
  rw [window_drain, Window.toList_empty, List.append_nil] at all
  rw [all]
  exact holds

theorem steps_append (es fs : List Event) (s : Simulator) :
    steps (es ++ fs) s = steps es s >>= steps fs := by
  induction es generalizing s with
  | nil => exact (pure_bind s (steps fs)).symm
  | cons e es ih =>
      rw [List.cons_append, steps, steps, bind_assoc]
      exact congrArg (s.step e >>= ·) (funext ih)

end Simulator

end BranchSim
