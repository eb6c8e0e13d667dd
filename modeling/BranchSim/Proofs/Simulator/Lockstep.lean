import BranchSim.Proofs.Simulator.Delay
import Mathlib.Data.List.Forall2

namespace BranchSim

def SameOutcomes (es fs : List Event) : Prop :=
  List.Forall₂ (fun e f => e.taken = f.taken) es fs

theorem sameOutcomes_refl (es : List Event) : SameOutcomes es es :=
  List.forall₂_same.2 fun _ _ => rfl

theorem zip_take_subset (es fs : List Event) (k : Nat) :
    (es.take k).zip (fs.take k) ⊆ es.zip fs := by
  have prefixes : (es.take k).zip (fs.take k) = (es.zip fs).take k := List.take_zipWith.symm
  rw [prefixes]
  exact List.take_subset k _

theorem exists_of_mem_zip_self {es : List Event} {x : Event × Event} (member : x ∈ es.zip es) :
    ∃ e ∈ es, x = (e, e) := by
  have doubled : es.zip es = es.map fun e => (e, e) := List.zipWith_self
  rw [doubled] at member
  obtain ⟨e, inside, rfl⟩ := List.mem_map.1 member
  exact ⟨e, inside, rfl⟩

structure Stats.SameCounts (s s' : Stats) : Prop where
  correct : s.correct = s'.correct
  wrong : s.wrong = s'.wrong
  divergent : s.divergent = s'.divergent

namespace Predictor

structure Lockstep (p q : Predictor) (es fs : List Event) : Prop where
  outcomes : SameOutcomes es fs
  predictions : ∀ k, ∀ x ∈ es.zip fs,
    (p.trainAll (es.take k)).predict x.1.pc = (q.trainAll (fs.take k)).predict x.2.pc

/-- All that the counts depend on: for each event its prediction at fetch, the one just before it
trains, and its outcome. -/
def scores (p : Predictor) (latency : Nat) (events : List Event) : List (Bool × Bool × Bool) :=
  List.ofFn fun i : Fin events.length =>
    (p.prediction latency events i, p.prediction 0 events i, (events.get i).taken)

variable {p q : Predictor} {es fs : List Event}

theorem Lockstep.prediction_eq (lockstep : Lockstep p q es fs) (latency : Nat) {i : Nat}
    (bound : i < es.length) (bound' : i < fs.length) :
    p.prediction latency es ⟨i, bound⟩ = q.prediction latency fs ⟨i, bound'⟩ := by
  have member : (es[i], fs[i]) ∈ es.zip fs := by
    rw [List.mem_iff_getElem]
    exact ⟨i, by simp [bound, bound'], List.getElem_zip⟩
  exact lockstep.predictions (i - latency) _ member

theorem Lockstep.scores_eq (lockstep : Lockstep p q es fs) (latency : Nat) :
    p.scores latency es = q.scores latency fs := by
  have length : es.length = fs.length := lockstep.outcomes.length_eq
  apply List.ext_getElem
  · simp [scores, length]
  · intro i bound bound'
    rw [scores, List.length_ofFn] at bound bound'
    have taken : es[i].taken = fs[i].taken :=
      (List.forall₂_iff_get.1 lockstep.outcomes).2 i bound bound'
    simp only [scores, List.getElem_ofFn]
    rw [lockstep.prediction_eq latency bound bound', lockstep.prediction_eq 0 bound bound']
    exact congrArg _ (congrArg _ taken)

theorem counts_run (p : Predictor) (g : GeneralConfig) (events : List Event) :
    let stats := ((Simulator.ofPredictor p g).run events).value.stats
    let scores := p.scores g.resolveLatency.toNat events
    stats.correct = scores.countP (fun x => x.1 = x.2.2) ∧
      stats.wrong = scores.countP (fun x => x.1 ≠ x.2.2) ∧
      stats.divergent = scores.countP (fun x => x.1 ≠ x.2.1) := by
  simp only [scores, countP_ofFn, decide_eq_true_eq]
  exact ⟨(Simulator.correct_run rfl events).trans (Nat.zero_add _),
    (Simulator.wrong_run rfl events).trans (Nat.zero_add _),
    (Simulator.divergent_run rfl events).trans (Nat.zero_add _)⟩

theorem Lockstep.sameCounts (lockstep : Lockstep p q es fs) (g : GeneralConfig) :
    Stats.SameCounts ((Simulator.ofPredictor p g).run es).value.stats
      ((Simulator.ofPredictor q g).run fs).value.stats := by
  obtain ⟨correct, wrong, divergent⟩ := p.counts_run g es
  obtain ⟨correct', wrong', divergent'⟩ := q.counts_run g fs
  rw [← lockstep.scores_eq] at correct' wrong' divergent'
  exact ⟨correct.trans correct'.symm, wrong.trans wrong'.symm, divergent.trans divergent'.symm⟩

theorem Lockstep.delayed_eq (lockstep : Lockstep p q es es) (latency : Nat) :
    p.delayed latency es = q.delayed latency es := by
  apply List.ext_getElem
  · simp
  · intro i bound bound'
    rw [length_delayed] at bound
    simp only [delayed, List.getElem_ofFn]
    rw [lockstep.prediction_eq latency bound bound]

theorem Lockstep.stats_eq (lockstep : Lockstep p q es es) (g : GeneralConfig) :
    ((Simulator.ofPredictor p g).run es).value.stats =
      ((Simulator.ofPredictor q g).run es).value.stats := by
  have delayed : p.delayed g.resolveLatency.toNat es = q.delayed g.resolveLatency.toNat es :=
    lockstep.delayed_eq _
  have divergent := (lockstep.sameCounts g).divergent
  have resolved := Simulator.resolved_run (s := .ofPredictor p g) rfl es
  have resolved' := Simulator.resolved_run (s := .ofPredictor q g) rfl es
  rw [resolved.stats, resolved'.stats] at divergent ⊢
  simp only [Simulator.ofPredictor, Simulator.latency, delayed] at divergent ⊢
  rw [divergent]

end Predictor

end BranchSim
