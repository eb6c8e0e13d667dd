import BranchSim.Event
import BranchSim.Files
import BranchSim.Json.Format

namespace BranchSim

open Json (Fault Format)

inductive TraceError
  | inaccessible (e : FileError)
  /-- The file was opened, but its text could not be read or written to the end. -/
  | interrupted (e : FileError)
  | malformed (f : Fault)
deriving DecidableEq, Repr

def TraceError.ofWrite : WriteError → TraceError
  | .creation e | .flush e => .inaccessible e
  | .content e => .interrupted e

def Event.format : Format Event := .record {
  name := "BranchEvent"
  initial := ⟨0, false⟩
  fields := [
    .of "pc" true (.word64 "u64") (·.pc) ({ · with pc := · }),
    .of "taken" true .boolean (·.taken) ({ · with taken := · })] }

namespace Trace

def format : Format (List Event) := .list Event.format

def ofOctets (octets : List Char) : Except TraceError (List Event) :=
  (format.decode octets).mapError .malformed

def ofFile : Except FileError (List Char) → Except TraceError (List Event)
  | .error .isDirectory => .error (.interrupted .isDirectory)
  | .error e => .error (.inaccessible e)
  | .ok octets => ofOctets octets

def document (events : List Event) : List Char :=
  format.encode events

end Trace

end BranchSim
