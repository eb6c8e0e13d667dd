import BranchSim.Main
import BranchSim.Proofs.Cli.Agreement
import BranchSim.Proofs.Cli.Replay
import BranchSim.Proofs.Config.Document
import BranchSim.Proofs.Config.Geometry
import BranchSim.Proofs.Perceptron.Convergence
import BranchSim.Proofs.Perceptron.Layout
import BranchSim.Proofs.Perceptron.MistakeBound
import BranchSim.Proofs.Shared.Interleaving
import BranchSim.Proofs.Simulator.Conservation
import BranchSim.Proofs.Simulator.Delay
import BranchSim.Proofs.Trace
import BranchSim.Proofs.GShare.Table
import BranchSim.Proofs.GShare.Interference
import BranchSim.Proofs.GShare.Walk
import BranchSim.Proofs.Simulator.Lockstep
import BranchSim.Proofs.Perceptron.Aliasing
import BranchSim.Proofs.Perceptron.Rule
import BranchSim.Proofs.GShare.Relabelling
import BranchSim.Proofs.Perceptron.Table
import BranchSim.Proofs.Perceptron.Width
import BranchSim.Proofs.Perceptron.Words
import BranchSim.Proofs.Predictor.Construction
import BranchSim.Proofs.Simulator.Reset
import BranchSim.Proofs.WholeDocuments
import BranchSim.Proofs.Config.Partial
import BranchSim.Proofs.Config.Positional
import BranchSim.Proofs.Trace.Incomplete
import BranchSim.Proofs.ExactIntegers
import BranchSim.Proofs.Sites.Ranking
import BranchSim.Proofs.Report.Counters
import BranchSim.Proofs.Report.Sections
import BranchSim.Proofs.Simulator.Tracing
import BranchSim.Proofs.Perceptron.Response
import BranchSim.Proofs.GShare.Convergence
import BranchSim.Proofs.BubbleSort.Comparisons
import BranchSim.Proofs.Fibonacci
import BranchSim.Proofs.Multiplication
