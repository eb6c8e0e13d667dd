namespace BranchSim

abbrev Address := UInt64

/-- Instructions are words of `2 ^ alignBits` bytes. -/
def Address.alignBits : Nat := 2

def Address.word (pc : Address) : UInt64 :=
  pc >>> UInt64.ofNat Address.alignBits

theorem Address.toNat_word (pc : Address) : pc.word.toNat = pc.toNat / 4 := by
  have align : (UInt64.ofNat Address.alignBits).toNat % 64 = 2 := rfl
  rw [word, UInt64.toNat_shiftRight, align, Nat.shiftRight_eq_div_pow]

structure Event where
  pc : Address
  taken : Bool
deriving DecidableEq, Repr, Inhabited

def sign (taken : Bool) : Int :=
  if taken then 1 else -1

end BranchSim
