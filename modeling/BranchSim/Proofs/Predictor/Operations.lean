import BranchSim.Event

namespace BranchSim.Predictor

inductive Operation
  | train (e : Event)
  | reset
deriving DecidableEq, Repr

namespace Operation

variable {α β : Type}

def perform (train : α → Event → α) (reset : α → α) (a : α) : Operation → α
  | .train e => train a e
  | .reset => reset a

def performAll (train : α → Event → α) (reset : α → α) (a : α) (ops : List Operation) : α :=
  ops.foldl (perform train reset) a

variable {train : α → Event → α} {reset : α → α} {train' : β → Event → β} {reset' : β → β}

theorem performAll_rel {R : α → β → Prop} {a : α} {b : β} (start : R a b)
    (trains : ∀ {a b} e, R a b → R (train a e) (train' b e))
    (resets : ∀ {a b}, R a b → R (reset a) (reset' b)) (ops : List Operation) :
    R (performAll train reset a ops) (performAll train' reset' b ops) := by
  refine List.foldl_rel start fun o _ a b related => ?_
  cases o with
  | train e => exact trains e related
  | reset => exact resets related

theorem performAll_preserves {P : α → Prop} {a : α} (start : P a)
    (trains : ∀ {a} e, P a → P (train a e)) (resets : ∀ {a}, P a → P (reset a))
    (ops : List Operation) : P (performAll train reset a ops) := by
  refine List.foldlRecOn ops _ start fun a kept o _ => ?_
  cases o with
  | train e => exact trains e kept
  | reset => exact resets kept

end Operation

end BranchSim.Predictor
