import BranchSim.Proofs.Simulator.Resolution

namespace BranchSim.Simulator

inductive Operation
  | step (e : Event)
  | run (events : List Event)
  | drain
  | reset
deriving DecidableEq, Repr

namespace Operation

def perform : Operation → Simulator → Recorded LogRecord Simulator
  | step e, s => s.step e
  | run events, s => s.run events
  | drain, s => s.drain
  | reset, s => s.reset

def extend (events : List Event) : Operation → List Event
  | step e => events ++ [e]
  | run es => events ++ es
  | drain => events
  | reset => []

end Operation

def performAll : List Operation → Simulator → Recorded LogRecord Simulator
  | [], s => pure s
  | o :: os, s => o.perform s >>= performAll os

def sinceReset (ops : List Operation) : List Event :=
  ops.foldl Operation.extend []

/-- Since a simulator was built or reset with predictor `p`, it has fetched `events` and has let go
of none that its window still has room for. -/
structure Conserves (p : Predictor) (g : GeneralConfig) (events : List Event) (s : Simulator) :
    Prop where
  general : s.general = g
  bounded : s.window.toList.length ≤ g.resolveLatency.toNat
  tracks : ∃ bs, bs.map (·.event) = events ∧ Tracks p {} bs s

theorem conserves_ofPredictor (p : Predictor) (g : GeneralConfig) :
    Conserves p g [] (ofPredictor p g) where
  general := rfl
  bounded := Nat.zero_le _
  tracks := ⟨[], rfl, .nil rfl⟩

variable {p : Predictor} {g : GeneralConfig} {events : List Event} {s : Simulator}

theorem Conserves.step (conserves : Conserves p g events s) (e : Event) :
    Conserves p g (events ++ [e]) (s.step e).value where
  general := (general_step s e).trans conserves.general
  bounded := by
    rw [length_window_step, latency, conserves.general]
    exact Nat.min_le_right ..
  tracks := by
    obtain ⟨bs, rfl, tracks⟩ := conserves.tracks
    refine ⟨bs ++ [s.fetched e], ?_, tracks.step e⟩
    rw [List.map_append]
    rfl

theorem Conserves.drain (conserves : Conserves p g events s) :
    Conserves p g events s.drain.value where
  general := (general_drain s).trans conserves.general
  bounded := by
    rw [window_drain]
    exact Nat.zero_le _
  tracks := by
    obtain ⟨bs, same, tracks⟩ := conserves.tracks
    exact ⟨bs, same, tracks.drain⟩

theorem Conserves.steps (conserves : Conserves p g events s) (es : List Event) :
    Conserves p g (events ++ es) (steps es s).value := by
  induction es generalizing events s with
  | nil =>
      rw [List.append_nil]
      exact conserves
  | cons e es ih =>
      have later := ih (conserves.step e)
      rw [List.append_assoc] at later
      exact later

theorem Conserves.reset (conserves : Conserves p g events s)
    (restored : ∀ es, (p.trainAll es).reset = p) : Conserves p g [] s.reset.value := by
  obtain ⟨bs, -, resolved, -, holds⟩ := conserves.tracks
  have again : s.reset.value = ofPredictor p g := by
    rw [Simulator.reset, holds.predictor, restored, conserves.general]
  rw [again]
  exact conserves_ofPredictor p g

theorem Conserves.perform (conserves : Conserves p g events s)
    (restored : ∀ es, (p.trainAll es).reset = p) (o : Operation) :
    Conserves p g (o.extend events) (o.perform s).value := by
  cases o with
  | step e => exact conserves.step e
  | run es => exact (conserves.steps es).drain
  | drain => exact conserves.drain
  | reset => exact conserves.reset restored

theorem Conserves.performAll (conserves : Conserves p g events s)
    (restored : ∀ es, (p.trainAll es).reset = p) (ops : List Operation) :
    Conserves p g (ops.foldl Operation.extend events) (performAll ops s).value := by
  induction ops generalizing events s with
  | nil => exact conserves
  | cons o os ih => exact ih (conserves.perform restored o)

theorem Resolved.lookups {bs : List Fetched} (resolved : Resolved p {} bs s) :
    s.stats.lookups = bs.length := by
  rw [resolved.stats]
  change (Stats.recordAll {} bs).lookups = _
  rw [Stats.lookups_recordAll]
  exact Nat.zero_add _

theorem Resolved.site_lookups {bs : List Fetched} (resolved : Resolved p {} bs s) (pc : Address) :
    (s.stats.sites.get pc).lookups = (bs.map (·.event)).countP (·.pc = pc) := by
  rw [resolved.stats, Stats.get_sites_recordAll, List.countP_map]
  exact Nat.zero_add _

theorem Resolved.site_lookups? {bs : List Fetched} (resolved : Resolved p {} bs s) (pc : Address) :
    (s.stats.sites.get? pc).map (·.lookups) =
      if ∃ e ∈ bs.map (·.event), e.pc = pc then some ((bs.map (·.event)).countP (·.pc = pc))
      else none := by
  have counted := resolved.site_lookups pc
  rw [resolved.stats] at counted ⊢
  rw [Stats.get?_sites_recordAll]
  simp only [List.mem_map, exists_exists_and_eq_and]
  split
  · exact congrArg some counted
  · rfl

theorem branches_conserved (c : Config) (valid : c.validate = .ok ()) (kind : PredictorKind) :
    ∃ p, Predictor.ofKind kind c.predictor = .ok p ∧
      (kind = c.predictor.kind → ofConfig c = .ok (ofPredictor p c.general)) ∧
      (∀ ops, ∃ resolved,
        let s := (performAll ops (ofPredictor p c.general)).value
        let inFlight := s.window.toList.map (·.event)
        sinceReset ops = resolved ++ inFlight ∧
        s.inFlight = inFlight.length ∧ s.inFlight ≤ c.general.resolveLatency.toNat ∧
        s.predictor = p.trainAll resolved ∧
        s.stats.lookups = resolved.length ∧
        ∀ pc, (s.stats.sites.get pc).lookups = resolved.countP (·.pc = pc)) ∧
      (∀ (g g' : GeneralConfig) (ops ops' : List Operation), sinceReset ops = sinceReset ops' →
        let s := (performAll ops (ofPredictor p g)).value.drain.value
        let s' := (performAll ops' (ofPredictor p g')).value.drain.value
        s.predictor = s'.predictor ∧
        ∀ pc, (s.stats.sites.get? pc).map (·.lookups) =
          (s'.stats.sites.get? pc).map (·.lookups)) := by
  have restored := Predictor.reset_trainAll_fresh c.predictor kind
  refine ⟨Predictor.fresh c.predictor kind, Predictor.ofKind_of_validate valid kind, ?_, ?_, ?_⟩
  · rintro rfl
    rw [ofConfig, Predictor.ofConfig, Predictor.ofKind_of_validate valid]
    rfl
  · intro ops
    obtain ⟨general, bounded, bs, same, resolved, all, holds⟩ :=
      (conserves_ofPredictor _ c.general).performAll restored ops
    refine ⟨resolved.map (·.event), ?_, ?_, ?_, holds.predictor, ?_, holds.site_lookups⟩
    · rw [← List.map_append, ← all, same]
      rfl
    · rw [List.length_map]
      exact Window.size_eq_length _
    · exact (Window.size_eq_length _).trans_le bounded
    · rw [List.length_map]
      exact holds.lookups
  · intro g g' ops ops' fetched s s'
    obtain ⟨-, -, bs, same, tracks⟩ := (conserves_ofPredictor _ g).performAll restored ops
    obtain ⟨-, -, bs', same', tracks'⟩ := (conserves_ofPredictor _ g').performAll restored ops'
    have events : bs.map (·.event) = bs'.map (·.event) := (same.trans fetched).trans same'.symm
    have holds := tracks.resolved_drain
    have holds' := tracks'.resolved_drain
    refine ⟨?_, fun pc => ?_⟩
    · rw [holds.predictor, holds'.predictor, events]
    · rw [holds.site_lookups? pc, holds'.site_lookups? pc, events]

theorem branches_conserved_across_reset :
    let ops := [.step ⟨8, true⟩, .reset, .run [⟨4, true⟩, ⟨4, false⟩], .step ⟨8, true⟩]
    let ops' := [.step ⟨4, true⟩, .drain, .run [⟨4, false⟩, ⟨8, true⟩]]
    Config.validate {} = .ok () ∧ sinceReset ops = sinceReset ops' ∧
      ∃ p, Predictor.ofKind .gshare ({} : Config).predictor = .ok p ∧
        (performAll ops (ofPredictor p ⟨false, 2⟩)).value.drain.value.predictor =
          (performAll ops' (ofPredictor p ⟨true, 1⟩)).value.drain.value.predictor := by
  intro ops ops'
  obtain ⟨p, built, -, -, same⟩ := branches_conserved {} (by decide) .gshare
  have agree := same ⟨false, 2⟩ ⟨true, 1⟩ ops ops' rfl
  exact ⟨by decide, rfl, p, built, agree.1⟩

end BranchSim.Simulator
