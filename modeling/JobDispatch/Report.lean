import JobDispatch.Disk
set_option autoImplicit false

namespace JobDispatch.Report

/-- A text of at most `limit` characters as it stands, a longer one with dots at its end. -/
def shorten (limit : Nat) (text : String) : String :=
  if limit < text.length then String.ofList (text.toList.take (limit - 3)) ++ "..." else text

def filler (width : Nat) (text : String) : String :=
  String.ofList (List.replicate (width - text.length) ' ')

/-- A cell whose text stands at the left. -/
def left (width : Nat) (text : String) : String := text ++ filler width text

/-- A cell whose text stands at the right. -/
def right (width : Nat) (text : String) : String := filler width text ++ text

def rule (c : Char) (width : Nat) : String := String.ofList (List.replicate width c)

def count (n : Nat) : String := String.ofList (Text.numeral n)

def row (cells : List String) : String := " ".intercalate cells

def jobHeading : String :=
  row [left 38 "JOB ID", left 20 "STATUS", right 8 "SIZE", right 7 "RETRY", left 16 "ENGINE",
    "SOURCE"]

def jobRow (job : Job) : String :=
  row [job.id.text, job.status.name, right 8 (job.jobSize.fixedText 1),
    right 3 (count job.retries.toNat) ++ "/" ++ left 3 (count job.maxRetries.toNat),
    left 16 (job.assignedEngine.getD "-"), shorten 30 job.sourceUrl]

def engineHeading : String :=
  row [left 20 "ENGINE ID", left 6 "STATUS", right 10 "STORAGE", right 10 "BENCHMARK",
    "LAST HEARTBEAT"]

def engineRow (engine : Engine) : String :=
  row [left 20 (shorten 20 engine.id), engine.status.name,
    right 10 (engine.storageCapacity.fixedText 1),
    right 10 ((engine.benchmarkTime.map fun time => time.fixedText 2).getD "-"),
    Time.timestamp "+00:00" engine.lastHeartbeat]

/-- The lines of one table: its name, and its rows or a word that there are none. -/
def chapter (name empty heading : String) (width : Nat) (rows : List String) : List String :=
  name :: rule '=' 40 ::
    if rows.isEmpty then [empty] else heading :: rule '-' width :: rows

def lines (texts : List String) : String := String.join (texts.map fun text => text ++ "\n")

def table (board : Board) : String :=
  lines <|
    chapter "Jobs" "No jobs found." jobHeading 110 (board.jobs.records.map jobRow) ++ [""]
      ++ chapter "Engines" "No engines found." engineHeading 80
        (board.engines.records.map engineRow)
      ++ ["", count board.jobs.size ++ " jobs, " ++ count board.engines.size ++ " engines"]

/-- The records in order, without their keys. -/
def listing (board : Board) : Json.Value := .record
  [("jobs", .array (board.jobs.records.map Job.toJson)),
    ("engines", .array (board.engines.records.map Engine.toJson))]

def json (board : Board) : String := lines [(listing board).indentedText]

end JobDispatch.Report
