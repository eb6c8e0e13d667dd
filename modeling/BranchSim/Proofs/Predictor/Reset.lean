import BranchSim.Predictor
import BranchSim.Proofs.Perceptron.Shape
import BranchSim.Proofs.Predictor.Operations

namespace BranchSim

theorem GShare.ofConfig_eq (c : GShareConfig) : ofConfig c = c.validate.map fun _ => fresh c := by
  unfold ofConfig
  cases c.validate <;> rfl

theorem GShare.reset_fresh (c : GShareConfig) : (fresh c).reset = fresh c := by
  simp [reset, fresh]

theorem GShare.reset_train (g : GShare) (e : Event) : (g.train e).reset = g.reset := by
  have counters : (g.train e).counters.map (fun _ => Counter.initial) =
      g.counters.map fun _ => .initial := by
    simp [train, Array.map_const']
  rw [reset, reset, counters]
  rfl

theorem GShare.reset_reset (g : GShare) : g.reset.reset = g.reset := by
  simp [reset]

def PredictorConfig.validateFor (c : PredictorConfig) :
    PredictorKind → Except GeometryError Unit
  | .static => .ok ()
  | .gshare => c.gshare.validate
  | .perceptron => c.perceptron.validate

namespace Predictor

def fresh (c : PredictorConfig) : PredictorKind → Predictor
  | .static => static
  | .gshare => gshare (GShare.fresh c.gshare)
  | .perceptron => perceptron (Perceptron.fresh c.perceptron)

theorem ofKind_eq (kind : PredictorKind) (c : PredictorConfig) :
    ofKind kind c = (c.validateFor kind).map fun _ => fresh c kind := by
  cases kind with
  | static => rfl
  | gshare =>
      rw [ofKind, GShare.ofConfig_eq, PredictorConfig.validateFor]
      cases c.gshare.validate <;> rfl
  | perceptron =>
      rw [ofKind, Perceptron.ofConfig_eq, PredictorConfig.validateFor]
      cases c.perceptron.validate <;> rfl

theorem of_ofKind {kind : PredictorKind} {c : PredictorConfig} {p : Predictor}
    (built : ofKind kind c = .ok p) : p = fresh c kind := by
  rw [ofKind_eq, map_eq_ok_iff] at built
  exact built.2

theorem ofKind_of_validate {c : Config} (valid : c.validate = .ok ()) (kind : PredictorKind) :
    ofKind kind c.predictor = .ok (fresh c.predictor kind) := by
  obtain ⟨perceptron, gshare⟩ := Config.validate_eq_ok_iff.1 valid
  rw [ofKind_eq, map_eq_ok_iff]
  cases kind with
  | static => exact ⟨rfl, rfl⟩
  | gshare => exact ⟨gshare, rfl⟩
  | perceptron => exact ⟨perceptron, rfl⟩

/-- Only the perceptron has a table whose shape training could damage. -/
def Shaped : Predictor → Prop
  | perceptron p => p.Shaped
  | _ => True

theorem shaped_fresh (c : PredictorConfig) (kind : PredictorKind) : (fresh c kind).Shaped := by
  cases kind with
  | static => trivial
  | gshare => trivial
  | perceptron => exact Perceptron.shaped_fresh c.perceptron

theorem Shaped.train {p : Predictor} (shaped : p.Shaped) (e : Event) : (p.train e).Shaped := by
  cases p with
  | static => trivial
  | gshare g => trivial
  | perceptron p => exact Perceptron.Shaped.train shaped e

theorem Shaped.reset {p : Predictor} (shaped : p.Shaped) : p.reset.Shaped := by
  cases p with
  | static => trivial
  | gshare g => trivial
  | perceptron p => exact Perceptron.Shaped.reset shaped

theorem Shaped.reset_train {p : Predictor} (shaped : p.Shaped) (e : Event) :
    (p.train e).reset = p.reset := by
  cases p with
  | static => rfl
  | gshare g => exact congrArg gshare (g.reset_train e)
  | perceptron p => exact congrArg perceptron (Perceptron.Shaped.reset_train shaped e)

theorem Shaped.reset_reset {p : Predictor} (shaped : p.Shaped) : p.reset.reset = p.reset := by
  cases p with
  | static => rfl
  | gshare g => exact congrArg gshare g.reset_reset
  | perceptron p => exact congrArg perceptron (Perceptron.Shaped.reset_reset shaped)

theorem reset_fresh (c : PredictorConfig) (kind : PredictorKind) :
    (fresh c kind).reset = fresh c kind := by
  cases kind with
  | static => rfl
  | gshare => exact congrArg gshare (GShare.reset_fresh c.gshare)
  | perceptron =>
      exact congrArg perceptron (Perceptron.shaped_fresh c.perceptron).reset_eq_fresh

theorem trainAll_cons (p : Predictor) (e : Event) (es : List Event) :
    p.trainAll (e :: es) = (p.train e).trainAll es := rfl

theorem trainAll_append (p : Predictor) (es fs : List Event) :
    p.trainAll (es ++ fs) = (p.trainAll es).trainAll fs :=
  List.foldl_append ..

def performAll (p : Predictor) (ops : List Operation) : Predictor :=
  Operation.performAll train reset p ops

theorem performAll_map_train (p : Predictor) (es : List Event) :
    p.performAll (es.map .train) = p.trainAll es :=
  List.foldl_map

theorem performAll_append (p : Predictor) (ops ops' : List Operation) :
    p.performAll (ops ++ ops') = (p.performAll ops).performAll ops' :=
  List.foldl_append ..

theorem Shaped.reset_performAll {p : Predictor} (shaped : p.Shaped) (ops : List Operation) :
    (p.performAll ops).reset = p.reset := by
  have kept : (p.performAll ops).Shaped ∧ (p.performAll ops).reset = p.reset := by
    refine Operation.performAll_preserves (P := fun q : Predictor => q.Shaped ∧ q.reset = p.reset)
      ⟨shaped, rfl⟩ ?_ ?_ ops
    · rintro q e ⟨shaped, same⟩
      exact ⟨shaped.train e, (shaped.reset_train e).trans same⟩
    · rintro q ⟨shaped, same⟩
      exact ⟨shaped.reset, shaped.reset_reset.trans same⟩
  exact kept.2

theorem reset_performAll_fresh (c : PredictorConfig) (kind : PredictorKind)
    (ops : List Operation) : ((fresh c kind).performAll ops).reset = fresh c kind := by
  rw [(shaped_fresh c kind).reset_performAll ops, reset_fresh]

theorem reset_trainAll_fresh (c : PredictorConfig) (kind : PredictorKind) (es : List Event) :
    ((fresh c kind).trainAll es).reset = fresh c kind := by
  rw [← performAll_map_train, reset_performAll_fresh]

end Predictor

end BranchSim
