import JobDispatch.CommandLine.Command
import JobDispatch.Report
set_option autoImplicit false

namespace JobDispatch.CommandLine

structure Outcome where
  exitCode : Nat
  output : String
deriving DecidableEq, Repr

def Format.render (board : Board) : Format → String
  | table => Report.table board
  | json => Report.json board

/-- Prints what a document holds. Without a document, or with one that is not accepted, nothing is
printed and the run fails. -/
def InspectOptions.run (options : InspectOptions) (document : Entry) : Outcome :=
  match (Disk.mk document .vacant true).load with
  | .ok (some board) => ⟨0, options.format.render board⟩
  | _ => ⟨1, ""⟩

end JobDispatch.CommandLine
