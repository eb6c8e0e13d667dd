import BranchSim.Proofs.Perceptron.Shape
import BranchSim.Proofs.Trail

namespace BranchSim.Perceptron

def trainings (p : Perceptron) (r : Nat) (events : List Event) : Nat :=
  events.countP fun e => p.index e.pc = r

def adjustments (p : Perceptron) (r : Nat) (events : List Event) : Nat :=
  (trail train p events).countP fun x => x.1.index x.2.pc = r ∧ x.1.adjusts x.2

def mistakes (p : Perceptron) (r : Nat) (events : List Event) : Nat :=
  (trail train p events).countP fun x => x.1.index x.2.pc = r ∧ x.1.predict x.2.pc ≠ x.2.taken

theorem config_of_mem_trail {p : Perceptron} {events : List Event} {x : Perceptron × Event}
    (member : x ∈ trail train p events) : x.1.config = p.config := by
  have keeps (q : Perceptron) (e : Event) (same : q.config = p.config) :
      (q.train e).config = p.config := same
  exact of_mem_trail keeps rfl member

theorem mistakes_le_adjustments (p : Perceptron) (r : Nat) (events : List Event) :
    p.mistakes r events ≤ p.adjustments r events := by
  apply List.countP_mono_left
  intro x _ mistaken
  simp only [decide_eq_true_eq] at mistaken ⊢
  refine ⟨mistaken.1, ?_⟩
  rw [adjusts, bne_iff_ne.2 mistaken.2, Bool.true_or]

theorem adjustments_le_trainings (p : Perceptron) (r : Nat) (events : List Event) :
    p.adjustments r events ≤ p.trainings r events := by
  have selected : p.trainings r events =
      (trail train p events).countP fun x => p.index x.2.pc = r := by
    rw [trainings]
    nth_rewrite 1 [← map_snd_trail train p events]
    exact List.countP_map
  rw [selected]
  apply List.countP_mono_left
  intro x member adjusted
  simp only [decide_eq_true_eq] at adjusted ⊢
  have here := adjusted.1
  rw [index, config_of_mem_trail member] at here
  exact here

theorem adjustments_append (p : Perceptron) (r : Nat) (es fs : List Event) :
    p.adjustments r (es ++ fs) = p.adjustments r es + (p.trainAll es).adjustments r fs := by
  rw [adjustments, trail_append, List.countP_append]
  rfl

theorem adjustments_concat (p : Perceptron) (r : Nat) (es : List Event) (e : Event) :
    p.adjustments r (es ++ [e]) = p.adjustments r es +
      if (p.trainAll es).index e.pc = r ∧ (p.trainAll es).adjusts e then 1 else 0 := by
  have last : trail train (p.trainAll es) [e] = [(p.trainAll es, e)] := rfl
  rw [adjustments_append]
  congr 1
  rw [adjustments, last, List.countP_singleton]
  simp only [decide_eq_true_eq]

theorem adjustments_take_le (p : Perceptron) (r k : Nat) (events : List Event) :
    p.adjustments r (events.take k) ≤ p.adjustments r events := by
  have whole := p.adjustments_append r (events.take k) (events.drop k)
  rw [List.take_append_drop] at whole
  omega

end BranchSim.Perceptron
