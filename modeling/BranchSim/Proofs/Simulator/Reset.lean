import BranchSim.Proofs.Simulator.Conservation

namespace BranchSim.Simulator

structure Descends (p : Predictor) (g : GeneralConfig) (s : Simulator) : Prop where
  general : s.general = g
  predictor : ∃ ops, s.predictor = p.performAll ops

variable {p : Predictor} {g : GeneralConfig} {s : Simulator}

theorem descends_ofPredictor (p : Predictor) (g : GeneralConfig) (ops : List Predictor.Operation) :
    Descends p g (ofPredictor (p.performAll ops) g) :=
  ⟨rfl, ops, rfl⟩

theorem Descends.with_window (descends : Descends p g s) (w : Window Fetched) :
    Descends p g { s with window := w } :=
  ⟨descends.general, descends.predictor⟩

theorem Descends.resolveOldestN (descends : Descends p g s) (n : Nat) :
    Descends p g (resolveOldestN n s).value where
  general := (general_resolveOldestN n s).trans descends.general
  predictor := by
    obtain ⟨ops, same⟩ := descends.predictor
    have trained := ((Resolved.nil s).resolveOldestN n).predictor
    rw [same, ← Predictor.performAll_map_train, ← Predictor.performAll_append] at trained
    exact ⟨_, trained⟩

theorem Descends.step (descends : Descends p g s) (e : Event) : Descends p g (s.step e).value :=
  (descends.with_window _).resolveOldestN _

theorem Descends.drain (descends : Descends p g s) : Descends p g s.drain.value :=
  descends.resolveOldestN _

theorem Descends.steps (descends : Descends p g s) (es : List Event) :
    Descends p g (steps es s).value := by
  induction es generalizing s with
  | nil => exact descends
  | cons e es ih => exact ih (descends.step e)

theorem Descends.reset (descends : Descends p g s) : Descends p g s.reset.value where
  general := descends.general
  predictor := by
    obtain ⟨ops, same⟩ := descends.predictor
    refine ⟨ops ++ [.reset], ?_⟩
    rw [Predictor.performAll_append, ← same]
    rfl

theorem Descends.perform (descends : Descends p g s) (o : Operation) :
    Descends p g (o.perform s).value := by
  cases o with
  | step e => exact descends.step e
  | run es => exact (descends.steps es).drain
  | drain => exact descends.drain
  | reset => exact descends.reset

theorem Descends.performAll (descends : Descends p g s) (ops : List Operation) :
    Descends p g (performAll ops s).value := by
  induction ops generalizing s with
  | nil => exact descends
  | cons o ops ih => exact ih (descends.perform o)

theorem Descends.reset_eq (descends : Descends p g s)
    (restored : ∀ ops, (p.performAll ops).reset = p) : s.reset.value = ofPredictor p g := by
  obtain ⟨ops, same⟩ := descends.predictor
  -- Window and statistics start anew, so only the predictor could carry something over.
  rw [Simulator.reset, same, restored, descends.general]

/-- A reset gives back the predictor that was built, and the simulator around it, whatever has been
done with both. Calls after the reset therefore have the same effects and write the same log as on
a new simulator. -/
theorem reset_rebuilds {c : PredictorConfig} {kind : PredictorKind}
    (built : Predictor.ofKind kind c = .ok p) :
    (∀ ops, (p.performAll ops).reset = p) ∧
    ∀ g : GeneralConfig,
      (kind = c.kind → ofConfig ⟨g, c⟩ = .ok (ofPredictor p g)) ∧
      ∀ (trained : List Predictor.Operation) (calls : List Operation),
        let s := (performAll calls (ofPredictor (p.performAll trained) g)).value.reset.value
        s = ofPredictor p g ∧ ∀ later, performAll later s = performAll later (ofPredictor p g) := by
  have restored : ∀ ops, (p.performAll ops).reset = p := by
    obtain rfl := Predictor.of_ofKind built
    exact Predictor.reset_performAll_fresh c kind
  refine ⟨restored, fun g => ⟨?_, ?_⟩⟩
  · rintro rfl
    rw [ofConfig, Predictor.ofConfig, built]
    rfl
  · intro trained calls s
    have again : s = ofPredictor p g :=
      ((descends_ofPredictor p g trained).performAll calls).reset_eq restored
    exact ⟨again, fun later => congrArg _ again⟩

theorem reset_rebuilds_with_branches_in_flight :
    let c : PredictorConfig := ⟨.gshare, ⟨3, 7, 8, 15⟩, ⟨1, 2⟩⟩
    let p : Predictor := .gshare (.fresh c.gshare)
    let s := (performAll [.run [⟨0, true⟩], .step ⟨0, true⟩, .step ⟨4, false⟩]
      (ofPredictor (p.performAll [.train ⟨0, true⟩, .train ⟨4, true⟩]) ⟨true, 2⟩)).value
    let later : List Operation := [.step ⟨0, true⟩, .drain]
    Predictor.ofKind .gshare c = .ok p ∧ c.perceptron.validate = .error (.notPowerOfTwo 3) ∧
      s.inFlight = 2 ∧ s.predictor ≠ p ∧ s.stats.wrong = 1 ∧
      ofConfig ⟨⟨true, 2⟩, c⟩ = .ok s.reset.value ∧
      performAll later s.reset.value = performAll later (ofPredictor p ⟨true, 2⟩) := by
  intro c p s later
  have built : Predictor.ofKind .gshare c = .ok p := by decide
  obtain ⟨-, rebuilt⟩ := reset_rebuilds built
  obtain ⟨new, told⟩ := rebuilt ⟨true, 2⟩
  obtain ⟨again, same⟩ := told [.train ⟨0, true⟩, .train ⟨4, true⟩]
    [.run [⟨0, true⟩], .step ⟨0, true⟩, .step ⟨4, false⟩]
  refine ⟨built, by decide, by decide, by decide, by decide, ?_, same later⟩
  rw [new rfl]
  exact congrArg _ again.symm

end BranchSim.Simulator
