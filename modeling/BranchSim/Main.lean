import BranchSim.Cli.Outcome

namespace BranchSim.Program

def toOctets (bytes : ByteArray) : List Char :=
  bytes.toList.map fun b => Char.ofNat b.toNat

def ofOctets (octets : List Char) : ByteArray :=
  ⟨(octets.map fun c => UInt8.ofNat c.toNat).toArray⟩

def fileError : IO.Error → FileError
  | .inappropriateType _ 21 _ => .isDirectory
  | .inappropriateType .. => .notDirectory
  | .invalidArgument .. => .nameTooLong
  | .resourceExhausted .. => .storageFull
  | _ => .notFound

/-- The octets that are gathered before they are handed on to the file. -/
def bufferSize : Nat := 8192

def stage {α : Type} (failed : FileError → WriteError) (action : IO α) : ExceptT WriteError IO α :=
  ExceptT.mk do
    try return .ok (← action)
    catch e => return .error (failed (fileError e))

def files : FileSystem IO where
  read path := do
    try return .ok (toOctets (← IO.FS.readBinFile path))
    catch e => return .error (fileError e)
  write path octets := ExceptT.run do
    let bytes := ofOctets octets
    let passed := (bytes.size - 1) / bufferSize * bufferSize
    let handle ← stage .creation (IO.FS.Handle.mk path .write)
    stage .content do
      handle.write (bytes.extract 0 passed)
      handle.flush
    stage .flush do
      handle.write (bytes.extract passed bytes.size)
      handle.flush

def usage : String :=
  "usage: bpsim <run|compare|record|list> [options]\n"
    ++ "  run      -w WORKLOAD | -t TRACE, -c CONFIG, -p PREDICTOR, -l LATENCY, --stats SECTION\n"
    ++ "  compare  -w WORKLOAD | -t TRACE, -c CONFIG\n"
    ++ "  record   -w WORKLOAD -o OUTPUT\n"
    ++ "  list\n"

def perform (c : Cli.Command) : IO UInt32 := do
  let start ← IO.monoNanosNow
  let outcome ← c.execute files
  for notice in outcome.console.notices do
    IO.eprintln ("INFO " ++ notice.line)
  let stop ← IO.monoNanosNow
  IO.print (outcome.text (.elapsed (stop - start)))
  if let some failure := outcome.failure then
    IO.eprintln failure.line
  return UInt32.ofNat outcome.exitStatus

end BranchSim.Program

open BranchSim in
def main (args : List String) : IO UInt32 := do
  match Cli.Request.ofArgs args with
  | .ok (.command c) => Program.perform c
  | .ok .version =>
    IO.println Cli.versionLine
    return 0
  | .ok .help =>
    IO.print Program.usage
    return 0
  | .error _ =>
    IO.eprint Program.usage
    return UInt32.ofNat Cli.misuseStatus
