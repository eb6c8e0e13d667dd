namespace BranchSim

structure Recorded (ε α : Type) where
  value : α
  emitted : List ε
deriving DecidableEq, Repr

namespace Recorded

variable {ε α β : Type}

def emit (es : List ε) : Recorded ε Unit :=
  ⟨(), es⟩

def andThen (m : Recorded ε α) (f : α → Recorded ε β) : Recorded ε β :=
  let r := f m.value
  ⟨r.value, m.emitted ++ r.emitted⟩

instance : Monad (Recorded ε) where
  pure a := ⟨a, []⟩
  bind := andThen

@[simp] theorem value_pure (a : α) : (pure a : Recorded ε α).value = a := rfl

@[simp] theorem emitted_pure (a : α) : (pure a : Recorded ε α).emitted = [] := rfl

@[simp] theorem value_bind (m : Recorded ε α) (f : α → Recorded ε β) :
    (m >>= f).value = (f m.value).value := rfl

@[simp] theorem emitted_bind (m : Recorded ε α) (f : α → Recorded ε β) :
    (m >>= f).emitted = m.emitted ++ (f m.value).emitted := rfl

@[simp] theorem value_emit (es : List ε) : (emit es).value = () := rfl

@[simp] theorem emitted_emit (es : List ε) : (emit es).emitted = es := rfl

@[simp] theorem value_map (f : α → β) (m : Recorded ε α) : (f <$> m).value = f m.value := rfl

@[simp] theorem emitted_map (f : α → β) (m : Recorded ε α) : (f <$> m).emitted = m.emitted :=
  List.append_nil _

@[ext] theorem ext {m m' : Recorded ε α} (hv : m.value = m'.value)
    (he : m.emitted = m'.emitted) : m = m' := by
  cases m; cases m'; simp_all

instance : LawfulMonad (Recorded ε) := LawfulMonad.mk' _
  (fun _ => ext rfl (emitted_map ..))
  (fun _ _ => rfl)
  (fun _ _ _ => ext rfl (List.append_assoc ..))

end Recorded

end BranchSim
