import BranchSim.Proofs.Simulator.Resolution
import Mathlib.Algebra.Order.Group.Abs
import Mathlib.Algebra.Order.Group.Int

namespace BranchSim
open scoped Finset

namespace Predictor

/-- The prediction of the event at a position of a stream if each event trains the predictor once
`latency` younger ones have been predicted. -/
def prediction (p : Predictor) (latency : Nat) (events : List Event) (i : Fin events.length) :
    Bool :=
  (p.trainAll (events.take (i - latency))).predict events[i].pc

def delayed (p : Predictor) (latency : Nat) (events : List Event) : List Fetched :=
  List.ofFn fun i : Fin events.length => ⟨events[i], p.prediction latency events i⟩

@[simp] theorem length_delayed (p : Predictor) (latency : Nat) (events : List Event) :
    (p.delayed latency events).length = events.length := by
  simp [delayed]

@[simp] theorem map_event_delayed (p : Predictor) (latency : Nat) (events : List Event) :
    (p.delayed latency events).map (·.event) = events := by
  rw [delayed, List.map_ofFn]
  exact List.ofFn_getElem

theorem getElem_delayed (p : Predictor) (latency : Nat) (events : List Event) (i : Nat)
    (bound : i < (p.delayed latency events).length) (bound' : i < events.length) :
    (p.delayed latency events)[i] =
      ⟨events[i], (p.trainAll (events.take (i - latency))).predict events[i].pc⟩ :=
  List.getElem_ofFn _

theorem delayed_concat (p : Predictor) (latency : Nat) (es : List Event) (e : Event) :
    p.delayed latency (es ++ [e]) = p.delayed latency es ++
      [⟨e, (p.trainAll (es.take (es.length - latency))).predict e.pc⟩] := by
  apply List.ext_getElem
  · simp
  · intro i bound bound'
    have within : i < (es ++ [e]).length := by simpa using bound
    rw [getElem_delayed p latency _ i bound within]
    by_cases earlier : i < es.length
    · have prior : i - latency ≤ es.length := by omega
      rw [List.getElem_append_left earlier, List.getElem_append_left (by simpa using earlier),
        getElem_delayed p latency es i _ earlier, List.take_append_of_le_length prior]
    · have last : i = es.length := by
        rw [List.length_append, List.length_singleton] at within
        omega
      subst last
      rw [List.getElem_append_right (by simp), List.getElem_append_right (by simp),
        List.take_append_of_le_length (Nat.sub_le ..)]
      simp

/-- Each branch of a run resolves in the predictor that all earlier events of the stream have
trained, whatever the latency. -/
theorem trail_delayed (p : Predictor) (latency : Nat) (events : List Event) :
    trail (fun q b => q.train b.event) p (p.delayed latency events) =
      List.ofFn fun i : Fin events.length =>
        (p.trainAll (events.take i), ⟨events[i], p.prediction latency events i⟩) := by
  apply List.ext_getElem
  · simp
  · intro i bound bound'
    rw [getElem_trail _ _ _ _ bound (by simpa using bound), List.getElem_ofFn]
    congr 1
    · rw [← List.foldl_map (f := Fetched.event) (g := train), List.map_take, map_event_delayed]
      rfl
    · simp [delayed]

theorem divergences_delayed (p : Predictor) (latency : Nat) (events : List Event) :
    p.divergences (p.delayed latency events) =
      #{i | p.prediction latency events i ≠ p.prediction 0 events i} := by
  unfold divergences
  rw [trail_delayed, countP_ofFn]
  congr 1
  ext i
  rw [Finset.mem_filter, Finset.mem_filter, bne_iff_ne, ne_comm]
  rfl

end Predictor

namespace Simulator

theorem Tracks.predictor_eq {p : Predictor} {base : Stats} {bs : List Fetched} {s : Simulator}
    (tracks : Tracks p base bs s) :
    s.predictor =
      p.trainAll ((bs.map (·.event)).take (bs.length - s.window.toList.length)) := by
  obtain ⟨resolved, rfl, holds⟩ := tracks
  rw [holds.predictor, List.length_append, Nat.add_sub_cancel, List.map_append,
    List.take_left' (List.length_map _)]

theorem steps_concat (es : List Event) (e : Event) (s : Simulator) :
    (steps (es ++ [e]) s).value = ((steps es s).value.step e).value := by
  rw [steps_append]
  rfl

theorem general_steps (events : List Event) (s : Simulator) :
    (steps events s).value.general = s.general := by
  induction events using List.reverseRecOn with
  | nil => rfl
  | append_singleton es e ih => rw [steps_concat, general_step, ih]

theorem length_window_steps {s : Simulator} (empty : s.window = .empty) (events : List Event) :
    (steps events s).value.window.toList.length = min events.length s.latency := by
  induction events using List.reverseRecOn with
  | nil =>
      rw [show (steps [] s).value = s from rfl, empty]
      simp
  | append_singleton es e ih =>
      have latency : (steps es s).value.latency = s.latency := by
        rw [latency, general_steps]
        rfl
      rw [steps_concat, length_window_step, ih, latency, List.length_append, List.length_singleton]
      omega

theorem tracks_steps {s : Simulator} (empty : s.window = .empty) (events : List Event) :
    Tracks s.predictor s.stats (s.predictor.delayed s.latency events) (steps events s).value := by
  induction events using List.reverseRecOn with
  | nil => exact .nil empty
  | append_singleton es e ih =>
      -- The window tells how much of the stream the predictor has seen at this fetch.
      have seen := ih.predictor_eq
      rw [Predictor.map_event_delayed, Predictor.length_delayed, length_window_steps empty,
        show es.length - min es.length s.latency = es.length - s.latency by omega] at seen
      rw [steps_concat, Predictor.delayed_concat, ← seen]
      exact ih.step e

theorem resolved_run {s : Simulator} (empty : s.window = .empty) (events : List Event) :
    Resolved s.predictor s.stats (s.predictor.delayed s.latency events) (s.run events).value :=
  (tracks_steps empty events).resolved_drain

theorem wrong_run {s : Simulator} (empty : s.window = .empty) (events : List Event) :
    (s.run events).value.stats.wrong = s.stats.wrong +
      #{i | s.predictor.prediction s.latency events i ≠ events[i].taken} := by
  rw [(resolved_run empty events).stats, Stats.wrong_recordAll, Predictor.delayed, countP_ofFn]
  simp only [Fetched.wrong, bne_iff_ne]

theorem correct_run {s : Simulator} (empty : s.window = .empty) (events : List Event) :
    (s.run events).value.stats.correct = s.stats.correct +
      #{i | s.predictor.prediction s.latency events i = events[i].taken} := by
  rw [(resolved_run empty events).stats, Stats.correct_recordAll, Predictor.delayed, countP_ofFn]
  simp only [Fetched.wrong, bne, Bool.not_not, beq_iff_eq]

theorem divergent_run {s : Simulator} (empty : s.window = .empty) (events : List Event) :
    (s.run events).value.stats.divergent = s.stats.divergent +
      #{i | s.predictor.prediction s.latency events i ≠ s.predictor.prediction 0 events i} := by
  rw [(resolved_run empty events).stats, Predictor.divergences_delayed]

theorem lookups_run {s : Simulator} (empty : s.window = .empty) (events : List Event) :
    (s.run events).value.stats.lookups = s.stats.lookups + events.length := by
  rw [(resolved_run empty events).stats]
  change (s.stats.recordAll _).lookups = _
  rw [Stats.lookups_recordAll, Predictor.length_delayed]

theorem get_sites_run {s : Simulator} (empty : s.window = .empty) (events : List Event)
    (pc : Address) :
    (s.run events).value.stats.sites.get pc =
      { lookups := (s.stats.sites.get pc).lookups + #{i : Fin events.length | events[i].pc = pc}
        mispredictions := (s.stats.sites.get pc).mispredictions +
          #{i | events[i].pc = pc ∧
            s.predictor.prediction s.latency events i ≠ events[i].taken} } := by
  rw [(resolved_run empty events).stats, Stats.get_sites_recordAll, Predictor.delayed, countP_ofFn,
    countP_ofFn]
  simp only [Fetched.wrong, bne_iff_ne, decide_eq_true_eq]

theorem get?_sites_run {s : Simulator} (empty : s.window = .empty) (events : List Event)
    (pc : Address) :
    (s.run events).value.stats.sites.get? pc =
      if ∃ e ∈ events, e.pc = pc then some ((s.run events).value.stats.sites.get pc)
      else s.stats.sites.get? pc := by
  have fetched : (∃ b ∈ s.predictor.delayed s.latency events, b.event.pc = pc) ↔
      ∃ e ∈ events, e.pc = pc := by
    have same := s.predictor.map_event_delayed s.latency events
    constructor
    · rintro ⟨b, member, at_pc⟩
      have listed := List.mem_map_of_mem (f := Fetched.event) member
      rw [same] at listed
      exact ⟨b.event, listed, at_pc⟩
    · rintro ⟨e, member, at_pc⟩
      rw [← same] at member
      obtain ⟨b, inside, rfl⟩ := List.mem_map.1 member
      exact ⟨b, inside, at_pc⟩
  rw [(resolved_run empty events).stats, Stats.get?_sites_recordAll]
  simp only [fetched]

def predictThenTrain (s : Simulator) (e : Event) : Simulator :=
  { s with
    stats := s.stats.record (s.fetched e)
    predictor := s.predictor.train e }

theorem step_of_latency_zero {s : Simulator} (empty : s.window = .empty) (immediate : s.latency = 0)
    (e : Event) : (s.step e).value = s.predictThenTrain e := by
  obtain ⟨p, g, w, stats⟩ := s
  obtain rfl : w = .empty := empty
  simp only [step, latency]
  rw [show g.resolveLatency.toNat = 0 from immediate]
  change (resolve ⟨p, g, .empty, stats⟩ ⟨e, p.predict e.pc⟩).value = _
  simp only [resolve, bne_self_eq_false]
  rfl

theorem run_of_latency_zero {s : Simulator} (empty : s.window = .empty) (immediate : s.latency = 0)
    (events : List Event) : (s.run events).value = events.foldl predictThenTrain s := by
  have steps_eq : (steps events s).value = events.foldl predictThenTrain s := by
    induction events generalizing s with
    | nil => rfl
    | cons e es ih =>
        rw [steps, Recorded.value_bind, step_of_latency_zero empty immediate, List.foldl_cons]
        exact ih empty immediate
  have drained : (steps events s).value.window = .empty := by
    apply Window.eq_empty_of_toList
    rw [← List.length_eq_zero_iff, length_window_steps empty, immediate, Nat.min_zero]
  rw [run, Recorded.value_bind, drain, drained, ← steps_eq]
  rfl

theorem divergent_run_of_latency_zero {s : Simulator} (empty : s.window = .empty)
    (immediate : s.latency = 0) (events : List Event) :
    (s.run events).value.stats.divergent = s.stats.divergent := by
  rw [divergent_run empty events, immediate]
  simp

theorem card_disagreements {n : Nat} (f g taken : Fin n → Bool) :
    ∃ both gained lost : Nat, #{i | f i ≠ taken i} = both + gained ∧
      #{i | g i ≠ taken i} = both + lost ∧ #{i | f i ≠ g i} = gained + lost := by
  refine ⟨#{i | f i ≠ taken i ∧ g i ≠ taken i}, #{i | f i ≠ taken i ∧ ¬ g i ≠ taken i},
    #{i | g i ≠ taken i ∧ ¬ f i ≠ taken i}, ?_, ?_, ?_⟩
  · rw [← Finset.filter_filter, ← Finset.filter_filter, Finset.card_filter_add_card_filter_not]
  · simp only [and_comm (a := f _ ≠ taken _)]
    rw [← Finset.filter_filter, ← Finset.filter_filter, Finset.card_filter_add_card_filter_not]
  · rw [← Finset.card_union_of_disjoint, ← Finset.filter_or]
    · congr 1
      ext i
      rw [Finset.mem_filter, Finset.mem_filter]
      cases f i <;> cases g i <;> cases taken i <;> simp
    · rw [Finset.disjoint_filter]
      intro i _ gained lost
      exact lost.2 gained.1

/-- A run predicts each event from the predictor that the events before position `i - latency` have
trained, and scores it against the one that all events before it have trained. -/
theorem run_closed_form (s : Simulator) (events : List Event) (empty : s.window = .empty) :
    let after := (s.run events).value
    let predicted := s.predictor.prediction s.latency events
    let recomputed := s.predictor.prediction 0 events
    (after.predictor = s.predictor.trainAll events ∧ after.window = .empty ∧
      after.general = s.general) ∧
    after.stats.wrong = s.stats.wrong + #{i | predicted i ≠ events[i].taken} ∧
    after.stats.correct = s.stats.correct + #{i | predicted i = events[i].taken} ∧
    after.stats.divergent = s.stats.divergent + #{i | predicted i ≠ recomputed i} ∧
    (∀ pc, after.stats.sites.get pc =
      { lookups := (s.stats.sites.get pc).lookups + #{i : Fin events.length | events[i].pc = pc}
        mispredictions := (s.stats.sites.get pc).mispredictions +
          #{i | events[i].pc = pc ∧ predicted i ≠ events[i].taken} }) ∧
    (∀ pc, after.stats.sites.get? pc =
      if ∃ e ∈ events, e.pc = pc then some (after.stats.sites.get pc)
      else s.stats.sites.get? pc) ∧
    (s.latency = 0 → after = events.foldl predictThenTrain s ∧
      after.stats.divergent = s.stats.divergent) := by
  have resolved := resolved_run empty events
  have window : (s.run events).value.window = .empty := window_drain _
  have general : (s.run events).value.general = s.general := by
    rw [run, Recorded.value_bind, general_drain, general_steps]
  have trained := resolved.predictor
  rw [Predictor.map_event_delayed] at trained
  refine ⟨⟨trained, window, general⟩, wrong_run empty events, correct_run empty events,
    divergent_run empty events, get_sites_run empty events, get?_sites_run empty events, ?_⟩
  intro immediate
  exact ⟨run_of_latency_zero empty immediate events,
    divergent_run_of_latency_zero empty immediate events⟩

theorem run_closed_form_two_in_flight :
    let s := ofPredictor (.gshare (GShare.fresh ⟨1, 1⟩)) ⟨false, 2⟩
    let events : List Event := [⟨0, true⟩, ⟨0, true⟩, ⟨0, true⟩, ⟨0, false⟩, ⟨4, true⟩, ⟨0, true⟩]
    s.window = .empty ∧ (s.run events).value.stats.wrong = 3 ∧
      (s.run events).value.stats.divergent = 2 := by
  intro s events
  have closed := run_closed_form s events rfl
  refine ⟨rfl, closed.2.1.trans ?_, closed.2.2.2.1.trans ?_⟩
  · decide
  · decide

/-- Every misprediction that latency adds or takes away is a divergence, and every divergence is
one of these. -/
theorem divergence_accounts_for_latency (p : Predictor) (g : GeneralConfig) (events : List Event) :
    let delayed := ((ofPredictor p g).run events).value.stats
    let direct := ((ofPredictor p { g with resolveLatency := 0 }).run events).value.stats
    delayed.correct + delayed.wrong = direct.correct + direct.wrong ∧ direct.divergent = 0 ∧
      |(delayed.wrong : ℤ) - direct.wrong| ≤ delayed.divergent ∧
      ((delayed.wrong : ℤ) - direct.wrong) % 2 = delayed.divergent % 2 := by
  have lookups (c : GeneralConfig) :
      ((ofPredictor p c).run events).value.stats.lookups = events.length :=
    (lookups_run rfl events).trans (Nat.zero_add _)
  obtain ⟨both, gained, lost, wrong, wrong', diverging⟩ :=
    card_disagreements (p.prediction g.resolveLatency.toNat events) (p.prediction 0 events)
      fun i => events[i].taken
  intro delayed direct
  have wrong_delayed : delayed.wrong = both + gained := by
    rw [← wrong]
    exact (wrong_run rfl events).trans (Nat.zero_add _)
  have wrong_direct : direct.wrong = both + lost := by
    rw [← wrong']
    exact (wrong_run rfl events).trans (Nat.zero_add _)
  have divergent_delayed : delayed.divergent = gained + lost := by
    rw [← diverging]
    exact (divergent_run rfl events).trans (Nat.zero_add _)
  refine ⟨(lookups _).trans (lookups _).symm, divergent_run_of_latency_zero rfl rfl events, ?_, ?_⟩
  · rw [abs_le, wrong_delayed, wrong_direct, divergent_delayed]
    omega
  · rw [wrong_delayed, wrong_direct, divergent_delayed]
    omega

end Simulator

end BranchSim
