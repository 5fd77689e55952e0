import JobDispatch.Binary64.Literal
import JobDispatch.CommandLine.Options
import JobDispatch.Settings
set_option autoImplicit false

namespace JobDispatch.CommandLine

inductive Format where
  | table
  | json
deriving DecidableEq, Repr

def Format.name : Format → String
  | table => "table"
  | json => "json"

structure ServerOptions where
  stateFile : String
  host : Network.Address
  port : UInt16
  smallJobThreshold : Binary64
  defaultMaxRetries : UInt32
  engineTimeoutSecs : UInt64
  jobTimeoutSecs : UInt64
  assignIntervalMs : UInt64
  sweepIntervalMs : UInt64
  maxBackoffMs : UInt64
deriving DecidableEq, Repr

structure InspectOptions where
  stateFile : String
  format : Format
deriving DecidableEq, Repr

inductive Command where
  | server (options : ServerOptions)
  | inspect (options : InspectOptions)
deriving DecidableEq, Repr

/-- A file name; it must not be empty. -/
def readFileName (text : String) : Except UsageFault String :=
  if text.isEmpty then .error .missingOrUnlistedValue else .ok text

/-- A value that a type reads its own way. -/
def readParsed {α : Type} (parse : String → Option α) (text : String) : Except UsageFault α :=
  match parse text with
  | some a => .ok a
  | none => .error .unreadableValue

/-- A natural number up to a greatest one. A plus sign may stand before it, and a minus sign only
where the text is read as a number with a sign first. -/
def natUpTo? (greatest : Nat) (allowsMinus : Bool) (text : String) : Option Nat :=
  let (negative, digits) := Binary64.readSign text.toList
  if negative && !allowsMinus then none
  else (Text.natOfText? digits).filter fun n =>
    decide (n ≤ greatest) && (!negative || n == 0)

def readPortNumber (text : String) : Except UsageFault UInt16 :=
  (readParsed (natUpTo? (UInt16.size - 1) true) text).map UInt16.ofNat

def readRetries (text : String) : Except UsageFault UInt32 :=
  (readParsed (natUpTo? (UInt32.size - 1) true) text).map UInt32.ofNat

/-- A span of time in its unit. -/
def readSpan (text : String) : Except UsageFault UInt64 :=
  (readParsed (natUpTo? (UInt64.size - 1) false) text).map UInt64.ofNat

def readFormat (text : String) : Except UsageFault Format :=
  match [Format.table, Format.json].find? fun format => format.name == text with
  | some format => .ok format
  | none => .error .missingOrUnlistedValue

namespace ServerOptions

def defaults : ServerOptions where
  stateFile := defaultStateFile
  host := .loopback
  port := 8080
  smallJobThreshold := defaultThreshold
  defaultMaxRetries := 3
  engineTimeoutSecs := 300
  jobTimeoutSecs := 1800
  assignIntervalMs := 1000
  sweepIntervalMs := 30000
  maxBackoffMs := 5000

def all : List (Setting ServerOptions) :=
  [⟨"state-file", none, fun text options => do
      return { options with stateFile := ← readFileName text }⟩,
    ⟨"host", none, fun text options => do
      return { options with host := ← readParsed Network.Address.ofText? text }⟩,
    ⟨"port", none, fun text options => do
      return { options with port := ← readPortNumber text }⟩,
    ⟨"small-job-threshold", none, fun text options => do
      return { options with smallJobThreshold := ← readParsed Binary64.ofText? text }⟩,
    ⟨"default-max-retries", none, fun text options => do
      return { options with defaultMaxRetries := ← readRetries text }⟩,
    ⟨"engine-timeout-secs", none, fun text options => do
      return { options with engineTimeoutSecs := ← readSpan text }⟩,
    ⟨"job-timeout-secs", none, fun text options => do
      return { options with jobTimeoutSecs := ← readSpan text }⟩,
    ⟨"assign-interval-ms", none, fun text options => do
      return { options with assignIntervalMs := ← readSpan text }⟩,
    ⟨"sweep-interval-ms", none, fun text options => do
      return { options with sweepIntervalMs := ← readSpan text }⟩,
    ⟨"max-backoff-ms", none, fun text options => do
      return { options with maxBackoffMs := ← readSpan text }⟩]

def settings (options : ServerOptions) : Settings where
  stateFile := options.stateFile
  listenAddress := ⟨options.host, options.port, 0⟩
  smallJobThreshold := options.smallJobThreshold
  defaultMaxRetries := options.defaultMaxRetries
  engineTimeoutMs := timeoutOfSeconds options.engineTimeoutSecs
  jobTimeoutMs := timeoutOfSeconds options.jobTimeoutSecs
  assignIntervalMs := options.assignIntervalMs
  sweepIntervalMs := options.sweepIntervalMs
  backoff := ⟨Settings.standard.backoff.initialMs, options.maxBackoffMs⟩

end ServerOptions

namespace InspectOptions

def defaults : InspectOptions := ⟨defaultStateFile, .table⟩

def all : List (Setting InspectOptions) :=
  [⟨"state-file", none, fun text options => do
      return { options with stateFile := ← readFileName text }⟩,
    ⟨"output", some 'o', fun text options => do
      return { options with format := ← readFormat text }⟩]

end InspectOptions

def commandNames : List String := ["server", "inspect", "help"]

/-- What asking for help on some words comes to: at most one word, and that a command. -/
def helpOn : List String → UsageFault
  | [] => .helpAsked
  | [name] => if commandNames.contains name then .helpAsked else .unknownCommand
  | _ => .unknownCommand

/-- A word that does not name a command, where one should stand. -/
def strayWord (text : String) (texts : List String) : UsageFault :=
  match Word.ofText text with
  | .escape =>
    match texts with
    | [] => .nothingAsked
    | text :: _ => if commandNames.contains text then .unknownArgument else .unknownCommand
  | .long name value =>
    match [("help", UsageFault.helpAsked), ("version", UsageFault.versionAsked)].lookup
        (String.ofList name) with
    | some fault => if value.isSome then .unexpectedValue else fault
    | none => .unknownArgument
  | .letters first _ =>
    ([('h', UsageFault.helpAsked), ('V', UsageFault.versionAsked)].lookup first).getD
      .unknownArgument
  | .plain _ => .unknownCommand

namespace Command

def ofWords : List String → Except UsageFault Command
  | [] => .error .nothingAsked
  | "server" :: texts =>
    (readOptions ServerOptions.all (.ofDefaults .defaults) texts).map server
  | "inspect" :: texts =>
    (readOptions InspectOptions.all (.ofDefaults .defaults) texts).map inspect
  | "help" :: texts => .error (helpOn texts)
  | text :: texts => .error (strayWord text texts)

end Command

end JobDispatch.CommandLine
