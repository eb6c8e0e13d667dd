import BranchSim.Proofs.Simulator.Reset

/-!
# Traced branches

What the log of a simulator says has resolved. Between two resets, a simulator that traces branches
reports each one as it was fetched, and those that it has not reported are still in flight
(`Reports`). One that does not trace goes through the same states and logs the rest (`Silences`).
-/

namespace BranchSim

def LogRecord.resolution? : LogRecord → Option Fetched
  | branchResolved b => some b
  | _ => none

def resolutions (log : List LogRecord) : List Fetched :=
  log.filterMap LogRecord.resolution?

theorem resolutions_append (log log' : List LogRecord) :
    resolutions (log ++ log') = resolutions log ++ resolutions log' :=
  List.filterMap_append

theorem resolutions_filter_isNone (log : List LogRecord) :
    resolutions (log.filter (·.resolution?.isNone)) = [] := by
  apply List.filterMap_eq_nil_iff.2
  intro r member
  exact Option.isNone_iff_eq_none.1 (List.mem_filter.1 member).2

theorem Predictor.resolution?_of_mem_resetLog {p : Predictor} {r : LogRecord}
    (member : r ∈ p.resetLog) : r.resolution? = none := by
  cases p with
  | static => cases member
  | gshare g => cases member
  | perceptron p =>
      obtain rfl := List.mem_singleton.1 member
      rfl

namespace Simulator

/-! ## Fetches -/

def Operation.fetches : Operation → Simulator → List Fetched
  | step e, s => [s.fetched e]
  | run es, s => (trail (fun s e => (s.step e).value) s es).map fun x => x.1.fetched x.2
  | drain, _ => []
  | reset, _ => []

def fetches (ops : List Operation) (s : Simulator) : List Fetched :=
  (trail (fun s o => (o.perform s).value) s ops).flatMap fun x => x.2.fetches x.1

variable {p : Predictor} {base : Stats} {bs fs gs : List Fetched} {s : Simulator} {o : Operation}
  {m m' : Recorded LogRecord Simulator} {f : Simulator → Recorded LogRecord Simulator}

theorem Tracks.steps (tracks : Tracks p base bs s) (es : List Event) :
    Tracks p base (bs ++ (Operation.run es).fetches s) (steps es s).value := by
  induction es generalizing bs s with
  | nil =>
      rw [show (Operation.run []).fetches s = [] from rfl, List.append_nil]
      exact tracks
  | cons e es ih =>
      have later := ih (tracks.step e)
      rw [List.append_assoc] at later
      exact later

theorem Tracks.perform (tracks : Tracks p base bs s) (kept : o ≠ .reset) :
    Tracks p base (bs ++ o.fetches s) (o.perform s).value := by
  cases o with
  | step e => exact tracks.step e
  | run es => exact (tracks.steps es).drain
  | drain =>
      rw [Operation.fetches, List.append_nil]
      exact tracks.drain
  | reset => exact absurd rfl kept

theorem Tracks.performAll (tracks : Tracks p base bs s) {ops : List Operation}
    (kept : .reset ∉ ops) : Tracks p base (bs ++ fetches ops s) (performAll ops s).value := by
  induction ops generalizing bs s with
  | nil =>
      rw [show fetches [] s = [] from rfl, List.append_nil]
      exact tracks
  | cons o ops ih =>
      obtain ⟨here, later⟩ := not_or.1 (mt List.mem_cons.2 kept)
      have tracked := ih (tracks.perform (Ne.symm here)) later
      rw [List.append_assoc] at tracked
      exact tracked

/-! ## Reports -/

/-- Of the branches in flight and those fetched after them, the oldest are reported and the others
are in flight. -/
structure Reports (s : Simulator) (fetched : List Fetched) (m : Recorded LogRecord Simulator) :
    Prop where
  traced : m.value.general.traceBranches = true
  queue : resolutions m.emitted ++ m.value.window.toList = s.window.toList ++ fetched

theorem reports_pure (traced : s.general.traceBranches = true) : Reports s [] (pure s) :=
  ⟨traced, (List.append_nil _).symm⟩

theorem Reports.bind (first : Reports s fs m) (second : Reports m.value gs (f m.value)) :
    Reports s (fs ++ gs) (m >>= f) where
  traced := second.traced
  queue := by
    rw [Recorded.emitted_bind, Recorded.value_bind, resolutions_append, List.append_assoc,
      second.queue, ← List.append_assoc, first.queue, List.append_assoc]

theorem reports_resolveOldest (traced : s.general.traceBranches = true) :
    Reports s [] s.resolveOldest := by
  unfold resolveOldest
  cases popped : s.window.pop? with
  | none => exact reports_pure traced
  | some result =>
      obtain ⟨b, w⟩ := result
      refine ⟨traced, ?_⟩
      rw [Window.toList_of_pop? popped, List.append_nil]
      simp only [resolve, traced, if_true]
      rfl

theorem reports_resolveOldestN (traced : s.general.traceBranches = true) (n : Nat) :
    Reports s [] (resolveOldestN n s) := by
  induction n generalizing s with
  | zero => exact reports_pure traced
  | succ n ih =>
      have first := reports_resolveOldest traced
      exact first.bind (ih first.traced)

theorem reports_drain (traced : s.general.traceBranches = true) : Reports s [] s.drain :=
  reports_resolveOldestN traced _

theorem reports_step (traced : s.general.traceBranches = true) (e : Event) :
    Reports s [s.fetched e] (s.step e) := by
  have reports := reports_resolveOldestN (s := { s with window := s.window.push (s.fetched e) })
    traced (s.window.size + 1 - s.latency)
  refine ⟨reports.traced, reports.queue.trans ?_⟩
  rw [List.append_nil, Window.toList_push]

theorem reports_steps (traced : s.general.traceBranches = true) (es : List Event) :
    Reports s ((Operation.run es).fetches s) (steps es s) := by
  induction es generalizing s with
  | nil => exact reports_pure traced
  | cons e es ih =>
      have first := reports_step traced e
      exact first.bind (ih first.traced)

theorem reports_perform (traced : s.general.traceBranches = true) (kept : o ≠ .reset) :
    Reports s (o.fetches s) (o.perform s) := by
  cases o with
  | step e => exact reports_step traced e
  | run es =>
      have fetched := reports_steps traced es
      have drained := fetched.bind (reports_drain fetched.traced)
      rw [List.append_nil] at drained
      exact drained
  | drain => exact reports_drain traced
  | reset => exact absurd rfl kept

theorem reports_performAll (traced : s.general.traceBranches = true) {ops : List Operation}
    (kept : .reset ∉ ops) : Reports s (fetches ops s) (performAll ops s) := by
  induction ops generalizing s with
  | nil => exact reports_pure traced
  | cons o ops ih =>
      obtain ⟨here, later⟩ := not_or.1 (mt List.mem_cons.2 kept)
      have first := reports_perform traced (Ne.symm here)
      exact first.bind (ih first.traced later)

/-! ## Calls between resets -/

theorem performAll_append (ops ops' : List Operation) (s : Simulator) :
    performAll (ops ++ ops') s = performAll ops s >>= performAll ops' := by
  induction ops generalizing s with
  | nil => exact (pure_bind s (performAll ops')).symm
  | cons o ops ih =>
      rw [List.cons_append, performAll, performAll, bind_assoc]
      exact congrArg (o.perform s >>= ·) (funext ih)

theorem exists_sessions (ops : List Operation) :
    ∃ earlier last, ops = earlier.flatMap (· ++ [.reset]) ++ last ∧
      ∀ calls ∈ earlier ++ [last], .reset ∉ calls := by
  induction ops using List.reverseRecOn with
  | nil => exact ⟨[], [], rfl, by simp⟩
  | append_singleton ops o ih =>
      obtain ⟨earlier, last, rfl, kept⟩ := ih
      by_cases ends : o = .reset
      · refine ⟨earlier ++ [last], [], by simp [ends], ?_⟩
        intro calls member
        rcases List.mem_append.1 member with before | now
        · exact kept calls before
        · obtain rfl := List.mem_singleton.1 now
          exact List.not_mem_nil
      · refine ⟨earlier, last ++ [o], List.append_assoc .., ?_⟩
        intro calls member
        rcases List.mem_append.1 member with before | now
        · exact kept calls (List.mem_append_left _ before)
        · obtain rfl := List.mem_singleton.1 now
          have inside := kept last (List.mem_append_right _ (List.mem_singleton_self _))
          simp [inside, Ne.symm ends]

theorem resolutions_reset (s : Simulator) : resolutions s.reset.emitted = [] := by
  apply List.filterMap_eq_nil_iff.2
  intro r member
  exact Predictor.resolution?_of_mem_resetLog member

theorem performAll_sessions {g : GeneralConfig} (restored : ∀ ops, (p.performAll ops).reset = p)
    (earlier : List (List Operation)) (last : List Operation) :
    let new := ofPredictor p g
    let whole := performAll (earlier.flatMap (· ++ [.reset]) ++ last) new
    whole.value = (performAll last new).value ∧
      resolutions whole.emitted =
        (earlier ++ [last]).flatMap fun calls => resolutions (performAll calls new).emitted := by
  intro new
  induction earlier with
  | nil => exact ⟨rfl, (List.append_nil _).symm⟩
  | cons calls earlier ih =>
      obtain ⟨value, log⟩ := ih
      have again : (performAll calls new).value.reset.value = new :=
        ((descends_ofPredictor p g []).performAll calls).reset_eq restored
      have split : performAll ((calls :: earlier).flatMap (· ++ [.reset]) ++ last) new =
          performAll calls new >>= fun s => s.reset >>=
            performAll (earlier.flatMap (· ++ [.reset]) ++ last) := by
        rw [List.flatMap_cons, List.append_assoc, List.append_assoc, performAll_append]
        rfl
      simp only [split]
      rw [Recorded.value_bind, Recorded.value_bind, Recorded.emitted_bind,
        Recorded.emitted_bind, resolutions_append, resolutions_append, resolutions_reset, again, log]
      exact ⟨value, rfl⟩

/-! ## Without tracing -/

def silenced (s : Simulator) : Simulator :=
  { s with general := { s.general with traceBranches := false } }

structure Silences (m m' : Recorded LogRecord Simulator) : Prop where
  value : m'.value = m.value.silenced
  emitted : m'.emitted = m.emitted.filter (·.resolution?.isNone)

theorem silences_pure (s : Simulator) : Silences (pure s) (pure s.silenced) :=
  ⟨rfl, rfl⟩

theorem Silences.bind (first : Silences m m')
    (second : Silences (f m.value) (f m.value.silenced)) : Silences (m >>= f) (m' >>= f) where
  value := by
    rw [Recorded.value_bind, first.value]
    exact second.value
  emitted := by
    rw [Recorded.emitted_bind, Recorded.emitted_bind, List.filter_append, first.emitted, first.value,
      second.emitted]

theorem silences_resolve (s : Simulator) (b : Fetched) :
    Silences (s.resolve b) (s.silenced.resolve b) where
  value := rfl
  emitted := by
    simp only [resolve]
    cases s.general.traceBranches with
    | true => rfl
    | false => rfl

theorem silences_resolveOldest (s : Simulator) :
    Silences s.resolveOldest s.silenced.resolveOldest := by
  cases popped : s.window.pop? with
  | none =>
      have same : s.silenced.window.pop? = none := popped
      rw [resolveOldest, resolveOldest, popped, same]
      exact silences_pure s
  | some result =>
      have same : s.silenced.window.pop? = some result := popped
      rw [resolveOldest, resolveOldest, popped, same]
      exact silences_resolve { s with window := result.2 } result.1

theorem silences_resolveOldestN (n : Nat) (s : Simulator) :
    Silences (resolveOldestN n s) (resolveOldestN n s.silenced) := by
  induction n generalizing s with
  | zero => exact silences_pure s
  | succ n ih => exact (silences_resolveOldest s).bind (ih _)

theorem silences_step (s : Simulator) (e : Event) : Silences (s.step e) (s.silenced.step e) :=
  silences_resolveOldestN ..

theorem silences_steps (es : List Event) (s : Simulator) :
    Silences (steps es s) (steps es s.silenced) := by
  induction es generalizing s with
  | nil => exact silences_pure s
  | cons e es ih => exact (silences_step s e).bind (ih _)

theorem silences_reset (s : Simulator) : Silences s.reset s.silenced.reset where
  value := rfl
  emitted := by
    rw [List.filter_eq_self.2]
    · rfl
    · intro r member
      rw [Predictor.resolution?_of_mem_resetLog member]
      rfl

theorem silences_perform (o : Operation) (s : Simulator) :
    Silences (o.perform s) (o.perform s.silenced) := by
  cases o with
  | step e => exact silences_step s e
  | run es => exact (silences_steps es s).bind (silences_resolveOldestN ..)
  | drain => exact silences_resolveOldestN ..
  | reset => exact silences_reset s

theorem silences_performAll (ops : List Operation) (s : Simulator) :
    Silences (performAll ops s) (performAll ops s.silenced) := by
  induction ops generalizing s with
  | nil => exact silences_pure s
  | cons o ops ih => exact (silences_perform o s).bind (ih _)

/-! ## The statement -/

theorem Resolved.counts (resolved : Resolved p {} bs s) :
    s.stats.correct = bs.countP (fun b => b.predicted = b.event.taken) ∧
      s.stats.wrong = bs.countP (fun b => b.predicted ≠ b.event.taken) := by
  have correct := Stats.correct_recordAll {} bs
  have wrong := Stats.wrong_recordAll {} bs
  rw [resolved.stats]
  constructor
  · simpa [Stats.wrong_eq_decide] using correct
  · simpa [Stats.wrong_eq_decide] using wrong

/-- A traced simulator reports what it resolves, session by session, as it was fetched, and its
counters since the last reset count these reports. Without tracing everything but the reports is the
same. -/
theorem tracing_faithful_and_passive {c : PredictorConfig} {kind : PredictorKind}
    (built : Predictor.ofKind kind c = .ok p) (latency : UInt64) (ops : List Operation) :
    let new := ofPredictor p ⟨true, latency⟩
    let traced := performAll ops new
    let silent := performAll ops (ofPredictor p ⟨false, latency⟩)
    (∃ earlier last, ops = earlier.flatMap (· ++ [.reset]) ++ last ∧
      (∀ calls ∈ earlier ++ [last], .reset ∉ calls ∧
        resolutions (performAll calls new).emitted ++ (performAll calls new).value.window.toList =
          fetches calls new) ∧
      resolutions traced.emitted =
        (earlier ++ [last]).flatMap (fun calls => resolutions (performAll calls new).emitted) ∧
      traced.value = (performAll last new).value ∧
      let since := resolutions (performAll last new).emitted
      traced.value.predictor = p.trainAll (since.map (·.event)) ∧
      traced.value.stats.correct = since.countP (fun b => b.predicted = b.event.taken) ∧
      traced.value.stats.wrong = since.countP (fun b => b.predicted ≠ b.event.taken) ∧
      ∀ pc, (traced.value.stats.sites.get pc).lookups = since.countP (·.event.pc = pc)) ∧
    resolutions silent.emitted = [] ∧
    silent.emitted = traced.emitted.filter (·.resolution?.isNone) ∧
    silent.value = { traced.value with general := ⟨false, latency⟩ } := by
  intro new traced silent
  have restored : ∀ ops, (p.performAll ops).reset = p := by
    obtain rfl := Predictor.of_ofKind built
    exact Predictor.reset_performAll_fresh c kind
  have silences : Silences traced silent := silences_performAll ops new
  have settings : traced.value.general = ⟨true, latency⟩ :=
    ((descends_ofPredictor p _ []).performAll ops).general
  refine ⟨?_, ?_, silences.emitted, ?_⟩
  · obtain ⟨earlier, last, rfl, kept⟩ := exists_sessions ops
    obtain ⟨value, log⟩ := performAll_sessions (g := ⟨true, latency⟩) restored earlier last
    have queue (calls : List Operation) (member : calls ∈ earlier ++ [last]) :
        resolutions (performAll calls new).emitted ++ (performAll calls new).value.window.toList =
          fetches calls new :=
      (reports_performAll rfl (kept calls member)).queue
    refine ⟨earlier, last, rfl, fun calls member => ⟨kept calls member, queue calls member⟩, log,
      value, ?_⟩
    -- The reports since the last reset are the branches that the counters have taken in.
    have member : last ∈ earlier ++ [last] := List.mem_append_right _ (List.mem_singleton_self _)
    have start : Tracks p {} [] new := .nil rfl
    obtain ⟨resolved, all, holds⟩ := start.performAll (kept last member)
    rw [List.nil_append, ← queue last member, List.append_left_inj] at all
    rw [← all] at holds
    intro since
    have traced_eq : traced.value = (performAll last new).value := value
    rw [traced_eq]
    refine ⟨holds.predictor, holds.counts.1, holds.counts.2, fun pc => ?_⟩
    rw [holds.site_lookups, List.countP_map]
    rfl
  · rw [silences.emitted]
    exact resolutions_filter_isNone _
  · rw [silences.value, silenced, settings]

theorem tracing_faithful_and_passive_across_reset :
    let p : Predictor := .gshare (.fresh ⟨1, 1⟩)
    let ops : List Operation := [.run [⟨8, false⟩], .step ⟨8, true⟩, .reset, .step ⟨0, true⟩,
      .step ⟨4, true⟩, .drain, .step ⟨0, false⟩]
    let traced := performAll ops (ofPredictor p ⟨true, 1⟩)
    let silent := performAll ops (ofPredictor p ⟨false, 1⟩)
    Predictor.ofKind .gshare ⟨.gshare, {}, ⟨1, 1⟩⟩ = .ok p ∧
      resolutions traced.emitted =
        [⟨⟨8, false⟩, false⟩, ⟨⟨0, true⟩, false⟩, ⟨⟨4, true⟩, false⟩] ∧
      (∃ since, since <:+ resolutions traced.emitted ∧
        traced.value.predictor = p.trainAll (since.map (·.event))) ∧
      traced.value.stats.wrong = 2 ∧ traced.value.stats.divergent = 1 ∧
      traced.value.inFlight = 1 ∧ silent.emitted = [] ∧
      silent.value = { traced.value with general := ⟨false, 1⟩ } := by
  intro p ops traced silent
  have built : Predictor.ofKind .gshare ⟨.gshare, {}, ⟨1, 1⟩⟩ = .ok p := by decide
  obtain ⟨⟨earlier, last, -, -, log, -, trained, -⟩, -, -, same⟩ :=
    tracing_faithful_and_passive built 1 ops
  have suffix := List.suffix_append
    (earlier.flatMap fun calls => resolutions (performAll calls (ofPredictor p ⟨true, 1⟩)).emitted)
    (resolutions (performAll last (ofPredictor p ⟨true, 1⟩)).emitted)
  rw [List.flatMap_append, List.flatMap_singleton] at log
  rw [← log] at suffix
  refine ⟨built, ?_, ⟨_, suffix, trained⟩, ?_, ?_, ?_, ?_, same⟩
  all_goals decide +kernel

end Simulator

end BranchSim
