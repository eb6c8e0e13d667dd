namespace BranchSim.Column

private def blanks (width : Nat) (s : String) : String :=
  String.ofList (List.replicate (width - s.length) ' ')

def left (width : Nat) (s : String) : String :=
  s ++ blanks width s

def right (width : Nat) (s : String) : String :=
  blanks width s ++ s

def hex (digits n : Nat) : String :=
  "0x" ++ String.ofList ((Nat.toDigits 16 n).leftpad digits '0')

def lines (ls : List String) : String :=
  String.join (ls.map (· ++ "\n"))

end BranchSim.Column
