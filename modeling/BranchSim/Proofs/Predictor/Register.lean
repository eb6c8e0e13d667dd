import BranchSim.Proofs.GShare.Table
import BranchSim.Proofs.Perceptron.Layout

namespace BranchSim

namespace History

def Holds (h : History) (width : Nat) (outcomes : List Bool) : Prop :=
  ∀ i, h.outcome i =
    if recent : i < min width outcomes.length then outcomes[outcomes.length - 1 - i] else false

theorem holds_pushAll_empty {width : Nat} (fits : width ≤ maxWidth) (outcomes : List Bool) :
    (empty.pushAll width outcomes).Holds width outcomes := by
  intro i
  rw [outcome_pushAll_empty fits, testBit_packed]
  by_cases inside : i < width
  · by_cases pushed : i < outcomes.length
    · have reversed : i < outcomes.reverse.length := by simpa using pushed
      rw [dif_pos (Nat.lt_min.2 ⟨inside, pushed⟩), List.getD_eq_getElem _ _ reversed,
        List.getElem_reverse, decide_eq_true inside, Bool.true_and]
    · have missing : outcomes.reverse.length ≤ i := by simpa using pushed
      rw [dif_neg fun both => pushed (Nat.lt_min.1 both).2, List.getD_eq_default _ _ missing,
        Bool.and_false]
  · rw [dif_neg fun both => inside (Nat.lt_min.1 both).1, decide_eq_false inside, Bool.false_and]

end History

namespace Predictor

def register? : Predictor → Option (History × Nat)
  | static => none
  | gshare g => some (g.history, g.config.historyBits.toNat)
  | perceptron p => some (p.history, p.config.historyLength.toNat)

theorem register?_train (p : Predictor) (e : Event) :
    (p.train e).register? = p.register?.map fun r => (r.1.push r.2 e.taken, r.2) := by
  cases p with
  | static => rfl
  | gshare g => rfl
  | perceptron p => rfl

theorem register?_trainAll (p : Predictor) (es : List Event) :
    (p.trainAll es).register? =
      p.register?.map fun r => (r.1.pushAll r.2 (es.map (·.taken)), r.2) := by
  induction es generalizing p with
  | nil => exact (Option.map_id' ..).symm
  | cons e es ih =>
      rw [trainAll_cons, ih, register?_train, Option.map_map]
      rfl

theorem register?_trainAll_of_uniform {p : Predictor} {es : List Event} {taken : Bool} {h : History}
    {width : Nat} (register : p.register? = some (h, width)) (positive : 0 < width)
    (fits : width ≤ History.maxWidth) (long : width ≤ es.length)
    (same : ∀ e ∈ es, e.taken = taken) :
    (p.trainAll es).register? = some (.uniform width taken, width) := by
  have outcomes : es.map (·.taken) = List.replicate es.length taken := by
    rw [← List.map_const']
    exact List.map_congr_left same
  rw [register?_trainAll, register, outcomes, Option.map_some,
    History.pushAll_replicate h positive fits long]

/-- After any stream a new perceptron or gshare predictor has the newest outcomes in its register.
Where the branches were, and what became of weights and counters, leaves no trace in it. -/
theorem register_holds_newest :
    (∀ c : PerceptronConfig, c.validate = .ok () → ∃ p, Perceptron.ofConfig c = .ok p ∧
      ∀ events : List Event,
        (p.trainAll events).history.Holds c.historyLength.toNat (events.map (·.taken))) ∧
    (∀ c : GShareConfig, c.validate = .ok () → ∃ g, GShare.ofConfig c = .ok g ∧
      ∀ events : List Event,
        (g.trainAll events).history.Holds c.historyBits.toNat (events.map (·.taken))) ∧
    ∀ (p q : Predictor) (es fs : List Event), p.register? = q.register? →
      es.map (·.taken) = fs.map (·.taken) →
        (p.trainAll es).register? = (q.trainAll fs).register? := by
  refine ⟨?_, ?_, ?_⟩
  · intro c valid
    obtain ⟨-, ⟨-, fits⟩, -⟩ := PerceptronConfig.validate_eq_ok_iff.1 valid
    refine ⟨.fresh c, Perceptron.ofConfig_of_validate valid, fun events => ?_⟩
    rw [Perceptron.history_trainAll]
    exact History.holds_pushAll_empty fits _
  · intro c valid
    obtain ⟨-, -, fits⟩ := GShareConfig.validate_eq_ok_iff.1 valid
    refine ⟨.fresh c, GShare.ofConfig_of_validate valid, fun events => ?_⟩
    rw [GShare.history_trainAll]
    exact History.holds_pushAll_empty fits _
  · intro p q es fs register outcomes
    rw [register?_trainAll, register?_trainAll, register, outcomes]

theorem register_holds_newest_at_full_width :
    let c : PerceptronConfig := ⟨2, 64, 2, 0⟩
    let d : GShareConfig := ⟨1, 64⟩
    let events : List Event := (List.range 66).map fun i => ⟨4 * UInt64.ofNat i, i != 2⟩
    let elsewhere : List Event := events.map fun e => ⟨0, e.taken⟩
    c.validate = .ok () ∧ d.validate = .ok () ∧
      ∃ p g, Perceptron.ofConfig c = .ok p ∧ GShare.ofConfig d = .ok g ∧
        (p.trainAll events).history.outcome 62 = true ∧
        (p.trainAll events).history.outcome 63 = false ∧
        (g.trainAll events).history.outcome 63 = false ∧
        (g.trainAll events).history.outcome 64 = false ∧
        ((perceptron p).trainAll elsewhere).register? =
          ((gshare g).trainAll events).register? := by
  intro c d events elsewhere
  have valid : c.validate = .ok () := PerceptronConfig.validate_eq_ok_iff.2 ⟨⟨1, rfl⟩, by decide⟩
  have valid' : d.validate = .ok () := GShareConfig.validate_eq_ok_iff.2 (by decide)
  obtain ⟨perceptrons, gshares, same⟩ := register_holds_newest
  obtain ⟨p, built, holds⟩ := perceptrons c valid
  obtain ⟨g, built', holds'⟩ := gshares d valid'
  obtain ⟨-, rfl⟩ := Perceptron.of_ofConfig built
  obtain ⟨-, rfl⟩ := GShare.of_ofConfig built'
  have outcomes : elsewhere.map (·.taken) = events.map (·.taken) := by
    rw [List.map_map]
    rfl
  refine ⟨valid, valid', _, _, built, built', (holds events 62).trans ?_,
    (holds events 63).trans ?_, (holds' events 63).trans ?_, (holds' events 64).trans ?_,
    same _ _ _ _ rfl outcomes⟩
  all_goals decide

end Predictor

end BranchSim
