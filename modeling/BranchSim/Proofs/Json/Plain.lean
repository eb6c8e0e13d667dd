import BranchSim.Json.Format
import BranchSim.Proofs.Json.Spelling

namespace BranchSim.Json

def Plain (s : List Char) : Prop :=
  ∀ c ∈ s, 0x20 ≤ c.toNat ∧ c.toNat < 0x80 ∧ c ≠ '"' ∧ c ≠ '\\'

instance (s : List Char) : Decidable (Plain s) :=
  List.decidableBAll _ s

theorem Plain.ascii {s : List Char} (plain : Plain s) : Ascii s := fun c member =>
  (plain c member).2.1

theorem Plain.spells {s : List Char} (plain : Plain s) : Spells s s := by
  induction s with
  | nil => exact .nil
  | cons c s ih =>
      obtain ⟨⟨printable, ascii, unquoted⟩, later⟩ := List.forall_mem_cons.1 plain
      have spelled := Spells.char ⟨printable, unquoted⟩ (ih later)
      rw [Utf8.encodeChar_of_ascii ascii] at spelled
      exact spelled

namespace Format

theorem ascii_quoted {name : String} (plain : Plain name.toList) : Ascii (quoted name) :=
  .cons (by decide) (plain.ascii.append (.cons (by decide) .nil))

theorem named_quoted {name : String} (plain : Plain name.toList) :
    Named (quoted name) name.toList :=
  ⟨_, plain.spells, rfl⟩

end Format

end BranchSim.Json
