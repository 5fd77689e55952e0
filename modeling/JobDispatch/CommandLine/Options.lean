set_option autoImplicit false

/- Options on a command line. An option is a long name, or a letter, and a value, which stands in
the same word or in the next one. Words are read from left to right, and an option takes effect when
the next one is met or the line ends. -/
namespace JobDispatch.CommandLine

/-- Why a command line is not carried out. -/
inductive UsageFault where
  | nothingAsked
  | helpAsked
  | versionAsked
  | unknownCommand
  | unknownArgument
  | missingOrUnlistedValue
  | unreadableValue
  | unexpectedValue
  | givenTwice
deriving DecidableEq, Repr

/-- The exit code of a command line that is not carried out; asking for help is no fault. -/
def UsageFault.exitCode : UsageFault → Nat
  | helpAsked => 0
  | versionAsked => 0
  | _ => 2

/-- A word of a command line by its form. -/
inductive Word where
  | escape
  | long (name : List Char) (value : Option String)
  | letters (first : Char) (rest : List Char)
  | plain (text : String)
deriving DecidableEq, Repr

namespace Word

/-- A long name, and the value after an equals sign if there is one. -/
def ofLong (text : List Char) : Word :=
  match text.dropWhile (· != '=') with
  | [] => long text none
  | _ :: value => long (text.takeWhile (· != '=')) (some (String.ofList value))

/-- The form of a word: two dashes alone, a long name after two dashes, letters after one. -/
def ofText (text : String) : Word :=
  match text.toList with
  | ['-', '-'] => escape
  | '-' :: '-' :: rest => ofLong rest
  | '-' :: first :: rest => letters first rest
  | _ => plain text

end Word

/-- An option: how it is called, and what its value changes. -/
structure Setting (ω : Type) where
  name : String
  letter : Option Char
  assign : String → ω → Except UsageFault ω

/-- The options read so far: what they make up, the names given, and the option that was met last,
with its value once that is there. -/
structure Progress (ω : Type) where
  options : ω
  given : List String
  pending : Option (Setting ω × Option String)

namespace Progress

variable {ω : Type}

/-- No option yet. -/
def ofDefaults (defaults : ω) : Progress ω := ⟨defaults, [], none⟩

/-- An option takes effect, but only once. -/
def apply (setting : Setting ω) (value : String) (progress : Progress ω) :
    Except UsageFault (Progress ω) := do
  if progress.given.contains setting.name then .error .givenTwice
  return ⟨← setting.assign value progress.options, setting.name :: progress.given, none⟩

/-- The option that was met last takes effect. -/
def settle (progress : Progress ω) : Except UsageFault (Progress ω) :=
  match progress.pending with
  | none => .ok progress
  | some (_, none) => .error .missingOrUnlistedValue
  | some (setting, some value) => progress.apply setting value

/-- An option is met, with its value or without. -/
def meet (setting : Setting ω) (value : Option String) (progress : Progress ω) :
    Except UsageFault (Progress ω) := do
  let progress ← progress.settle
  match value with
  | some value => progress.apply setting value
  | none => return { progress with pending := some (setting, none) }

def ask (fault : UsageFault) (progress : Progress ω) : Except UsageFault (Progress ω) := do
  let _ ← progress.settle
  .error fault

def takeLong (settings : List (Setting ω)) (name : List Char) (value : Option String)
    (progress : Progress ω) : Except UsageFault (Progress ω) :=
  let asks := [("help", UsageFault.helpAsked), ("version", UsageFault.versionAsked)]
  match asks.lookup (String.ofList name) with
  | some fault => if value.isSome then .error .unexpectedValue else progress.ask fault
  | none =>
    match settings.find? fun setting => setting.name.toList == name with
    | some setting => progress.meet setting value
    | none => .error .unknownArgument

/-- A letter; what follows it in the same word, an equals sign apart, is its value. -/
def takeLetters (settings : List (Setting ω)) (first : Char) (rest : List Char)
    (progress : Progress ω) : Except UsageFault (Progress ω) :=
  let asks := [('h', UsageFault.helpAsked), ('V', UsageFault.versionAsked)]
  match asks.lookup first with
  | some fault => progress.ask fault
  | none =>
    match settings.find? fun setting => setting.letter == some first with
    | some setting =>
      progress.meet setting <| match rest with
        | [] => none
        | '=' :: value => some (String.ofList value)
        | value => some (String.ofList value)
    | none => .error .unknownArgument

/-- A word without a dash must be the value of the option that was met last. -/
def takePlain (text : String) (progress : Progress ω) : Except UsageFault (Progress ω) :=
  match progress.pending with
  | some (setting, none) => .ok { progress with pending := some (setting, some text) }
  | _ => .error .unknownArgument

end Progress

/-- The options on a command line. After two dashes nothing may follow, since no words other than
options are taken. -/
def readOptions {ω : Type} (settings : List (Setting ω)) :
    Progress ω → List String → Except UsageFault ω
  | progress, [] => progress.settle.map Progress.options
  | progress, text :: texts =>
    match Word.ofText text with
    | .escape =>
      if texts.isEmpty then progress.settle.map Progress.options else .error .unknownArgument
    | .long name value => do readOptions settings (← progress.takeLong settings name value) texts
    | .letters first rest => do
      readOptions settings (← progress.takeLetters settings first rest) texts
    | .plain text => do readOptions settings (← progress.takePlain text) texts

end JobDispatch.CommandLine
