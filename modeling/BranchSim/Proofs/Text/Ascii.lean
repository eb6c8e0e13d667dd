import BranchSim.Text.Utf8

namespace BranchSim

def Ascii (s : List Char) : Prop :=
  ∀ c ∈ s, c.toNat < 0x80

namespace Ascii

theorem nil : Ascii [] := by
  intro c member
  cases member

theorem cons {c : Char} {s : List Char} (head : c.toNat < 0x80) (tail : Ascii s) : Ascii (c :: s) :=
  List.forall_mem_cons.2 ⟨head, tail⟩

theorem append {s t : List Char} (left : Ascii s) (right : Ascii t) : Ascii (s ++ t) :=
  List.forall_mem_append.2 ⟨left, right⟩

theorem of_isDigit {s : List Char} (digits : ∀ c ∈ s, c.isDigit) : Ascii s := by
  intro c member
  have range := Char.isDigit_iff_toNat.1 (digits c member)
  exact Nat.lt_of_le_of_lt range.2 (by decide)

end Ascii

namespace Utf8

theorem encode_of_ascii {s : List Char} (ascii : Ascii s) : encode s = s := by
  induction s with
  | nil => rfl
  | cons c s ih =>
      obtain ⟨head, tail⟩ := List.forall_mem_cons.1 ascii
      have one : encodeChar c = [c] := if_pos head
      rw [encode, List.flatMap_cons, one, ← encode, ih tail]
      rfl

end Utf8

end BranchSim
