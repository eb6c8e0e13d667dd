namespace BranchSim

inductive Counter
  | strongNotTaken
  | weakNotTaken
  | weakTaken
  | strongTaken
deriving DecidableEq, Repr, Inhabited

namespace Counter

def initial : Counter := weakNotTaken

def toNat : Counter → Nat
  | strongNotTaken => 0
  | weakNotTaken => 1
  | weakTaken => 2
  | strongTaken => 3

def predict : Counter → Bool
  | strongNotTaken | weakNotTaken => false
  | weakTaken | strongTaken => true

def train : Counter → Bool → Counter
  | strongNotTaken, true => weakNotTaken
  | weakNotTaken, true => weakTaken
  | weakTaken, true => strongTaken
  | strongTaken, true => strongTaken
  | strongNotTaken, false => strongNotTaken
  | weakNotTaken, false => strongNotTaken
  | weakTaken, false => weakNotTaken
  | strongTaken, false => weakTaken

end Counter

end BranchSim
