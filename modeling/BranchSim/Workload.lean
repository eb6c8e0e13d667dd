import BranchSim.Workload.BubbleSort
import BranchSim.Workload.Factorial
import BranchSim.Workload.Fibonacci
import BranchSim.Workload.Loops

namespace BranchSim

inductive Workload
  | pattern
  | aliasing
  | complex
  | fibonacci
  | bubbleSort
  | factorial
deriving DecidableEq, Repr

structure UnknownWorkload where
  name : String
deriving DecidableEq, Repr

namespace Workload

def all : List Workload := [pattern, aliasing, complex, fibonacci, bubbleSort, factorial]

def name : Workload → String
  | pattern => "pattern"
  | aliasing => "aliasing"
  | complex => "complex"
  | fibonacci => "fibonacci"
  | bubbleSort => "bubblesort"
  | factorial => "factorial"

def description : Workload → String
  | pattern => "T,T,N repeating branch in a 100-iteration loop"
  | aliasing => "four loops colliding in a small table, two call orders"
  | complex => "correlated loops, bit-test chains, interleaved functions"
  | fibonacci => "base-case test of recursive fib(20)"
  | bubbleSort => "sort and verify 50 pseudo-random integers"
  | factorial => "5! via shift-and-add multiply"

def run : Workload → Recorded Event Int
  | pattern => Pattern.run 100
  | aliasing => Aliasing.run 100
  | complex => Correlated.run
  | fibonacci => (↑·) <$> fib 20
  | bubbleSort => BubbleSort.run BubbleSort.data
  | factorial => Int64.toInt <$> Factorial.run 5

def events (w : Workload) : List Event :=
  w.run.emitted

def ofName (name : String) : Except UnknownWorkload Workload :=
  match all.find? fun w => w.name == name.map Char.toLower with
  | some w => .ok w
  | none => .error ⟨name⟩

end Workload

def UnknownWorkload.message (e : UnknownWorkload) : String :=
  let names := ", ".intercalate (Workload.all.map Workload.name)
  s!"unknown workload '{e.name}' (expected one of: {names})"

end BranchSim
