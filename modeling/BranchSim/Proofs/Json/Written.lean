import BranchSim.Json.Format

namespace BranchSim.Json.Format

def arrayText (items : List String) : String :=
  "[" ++ ",".intercalate items ++ "]"

def objectText (members : List (String × String)) : String :=
  "\x7b" ++ ",".intercalate (members.map fun m => "\"" ++ m.1 ++ "\":" ++ m.2) ++ "\x7d"

theorem toList_arrayText (items : List String) :
    (arrayText items).toList = bracketed '[' ']' (items.map String.toList) := by
  simp only [arrayText, String.toList_append, String.toList_intercalate]
  rfl

theorem toList_objectText (members : List (String × String)) :
    (objectText members).toList =
      bracketed '\x7b' '\x7d' (members.map fun m => quoted m.1 ++ ':' :: m.2.toList) := by
  have written : (members.map fun m => "\"" ++ m.1 ++ "\":" ++ m.2).map String.toList =
      members.map fun m => quoted m.1 ++ ':' :: m.2.toList := by
    rw [List.map_map]
    apply List.map_congr_left
    intro m _
    simp [quoted]
  simp only [objectText, String.toList_append, String.toList_intercalate, written]
  rfl

theorem write_boolean (b : Bool) : boolean.write b = (toString b).toList := by
  cases b with
  | true => rfl
  | false => rfl

theorem write_word64 (expected : String) (w : UInt64) :
    (word64 expected).write w = (toString w).toList :=
  Nat.toList_repr.symm

theorem write_word32 (expected : String) (w : UInt32) :
    (word32 expected).write w = (toString w).toList :=
  Nat.toList_repr.symm

end BranchSim.Json.Format
