import JobDispatch.CommandLine.Program
set_option autoImplicit false

namespace JobDispatch

open CommandLine

def readEntry (name : String) : IO Entry := do
  match ← (IO.FS.readBinFile name).toBaseIO with
  | .ok content => return .file content
  | .error (.noFileOrDirectory ..) => return .vacant
  | .error _ => return .folder

def usage : String :=
  "Dispatches transcoding jobs to a pool of remote engines\n\n" ++
  "Usage: job-dispatch inspect [--state-file <FILE>] [--output table|json]\n"

def finish (outcome : Outcome) : IO UInt32 := do
  IO.print outcome.output
  return UInt32.ofNat outcome.exitCode

def runWords (texts : List String) : IO UInt32 := do
  match Command.ofWords texts with
  | .ok (.inspect options) => finish (options.run (← readEntry options.stateFile))
  | .ok (.server options) =>
    IO.eprintln ("no server for " ++ options.settings.listenAddress.text ++ " in this program")
    return 1
  | .error .helpAsked => finish ⟨0, usage⟩
  | .error .versionAsked => finish ⟨0, "job-dispatch 0.1.0\n"⟩
  | .error fault =>
    IO.eprint usage
    return UInt32.ofNat fault.exitCode

end JobDispatch

def main (texts : List String) : IO UInt32 := JobDispatch.runWords texts
