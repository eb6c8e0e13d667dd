import BranchSim.Json.Fault

namespace BranchSim.Json

abbrev Reader (α : Type) := List Char → Except Fault (α × List Char)

def isBlank (c : Char) : Bool :=
  c = ' ' || c = '\n' || c = '\t' || c = '\r'

def skipBlanks (s : List Char) : List Char :=
  s.dropWhile isBlank

def readWord : List Char → List Char → Except Fault (List Char)
  | [], s => .ok s
  | _ :: _, [] => .error .truncated
  | w :: ws, c :: s => if c = w then readWord ws s else .error .malformed

def readColon (s : List Char) : Except Fault (List Char) :=
  match skipBlanks s with
  | [] => .error .truncated
  | ':' :: s => .ok s
  | _ => .error .malformed

inductive Next
  | close (rest : List Char)
  | element (s : List Char)

def readNext (bracket : Char) (first : Bool) (s : List Char) : Except Fault Next :=
  match skipBlanks s with
  | [] => .error .truncated
  | c :: s =>
    if c = bracket then .ok (.close s)
    else if first then .ok (.element (c :: s))
    else if c = ',' then
      match skipBlanks s with
      | [] => .error .truncated
      | c :: s => if c = bracket then .error .malformed else .ok (.element (c :: s))
    else .error .malformed

end BranchSim.Json
