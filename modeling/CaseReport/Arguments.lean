import CaseReport.Path

/-!
# Command lines

A command line names a log and may give two options with a value each, in any order. A value is
attached with an equals sign or is the next word; a word that starts with a dash and is longer than
that is no value, unless it stands behind a word of two dashes. A value is put off until the next
word that needs it settled, so a word that is not known is reported before a bad value directly in
front of it. Asking for help or for the version ends the reading.
-/

namespace CaseReport

/-- The options that take a path. -/
inductive PathOption where
  | config
  | report
  deriving Repr, DecidableEq

/-- What a command line gives for a run. -/
structure Arguments where
  log : Path
  config : Option Path := none
  report : Option Path := none
  deriving Repr, DecidableEq

/-- What a command line asks for. -/
inductive Invocation where
  | run (arguments : Arguments)
  | help
  | version
  deriving Repr, DecidableEq

/-- Why a command line is refused. -/
inductive ArgumentFault where
  | missingLog
  /-- A value is empty or missing. -/
  | badValue
  /-- A word is neither a known option nor a value that has a place. -/
  | unknownWord
  | repeatedOption
  /-- A value is attached to an option that takes none. -/
  | surplusValue
  deriving Repr, DecidableEq

namespace Arguments

/-- The form of a word. -/
inductive Word where
  /-- Two dashes. All words behind it are values. -/
  | separator
  /-- An option with its name and the value attached to it. -/
  | long (name : List Char) (attached : Option (List Char))
  /-- Options of one letter, of which the first is given. -/
  | short (letter : Char)
  | value
  deriving Repr, DecidableEq

/-- The form of a word. -/
def Word.of (word : List Char) : Word :=
  match word with
  | ['-', '-'] => .separator
  | '-' :: '-' :: s =>
    match s.dropWhile (· != '=') with
    | _ :: attached => .long (s.takeWhile (· != '=')) (some attached)
    | [] => .long s none
  | '-' :: letter :: _ => .short letter
  | _ => .value

/-- A value that is not settled yet. -/
inductive Pending where
  | nothing
  | log (value : String)
  /-- An option whose value has not come yet. -/
  | option (option : PathOption)
  | optionValue (option : PathOption) (value : String)
  deriving Repr, DecidableEq

/-- What has been read of a command line. -/
structure Progress where
  log : Option Path := none
  config : Option Path := none
  report : Option Path := none
  pending : Pending := .nothing
  deriving Repr, DecidableEq

namespace Progress

/-- The value of an option. -/
def valueOf (progress : Progress) : PathOption → Option Path
  | .config => progress.config
  | .report => progress.report

/-- Gives an option a value. It may have one value, which is not empty. -/
def assign (progress : Progress) (option : PathOption) (value : String) :
    Except ArgumentFault Progress :=
  if (progress.valueOf option).isSome then .error .repeatedOption
  else if value.isEmpty then .error .badValue
  else
    match option with
    | .config => .ok { progress with config := some value }
    | .report => .ok { progress with report := some value }

/-- Settles what is pending. -/
def settle (progress : Progress) : Except ArgumentFault Progress :=
  match progress.pending with
  | .nothing => .ok progress
  | .log value =>
    if value.isEmpty then .error .badValue
    else .ok { progress with log := some value, pending := .nothing }
  | .option _ => .error .badValue
  | .optionValue option value => { progress with pending := .nothing }.assign option value

/-- Whether the log has been named. -/
def hasLog (progress : Progress) : Bool :=
  progress.log.isSome ||
    match progress.pending with
    | .log _ => true
    | _ => false

/-- Takes a value that belongs to no option. -/
def takeLog (progress : Progress) (value : String) : Except ArgumentFault Progress :=
  if progress.hasLog then .error .unknownWord
  else do
    let progress ← progress.settle
    return { progress with pending := .log value }

/-- Takes a word that is a value. -/
def takeValue (progress : Progress) (value : String) : Except ArgumentFault Progress :=
  match progress.pending with
  | .option option => .ok { progress with pending := .optionValue option value }
  | _ => progress.takeLog value

/-- Takes an option with a path. -/
def takeOption (progress : Progress) (option : PathOption) (attached : Option (List Char)) :
    Except ArgumentFault Progress := do
  let progress ← progress.settle
  match attached with
  | some value => progress.assign option (String.ofList value)
  | none => return { progress with pending := .option option }

/-- Ends a command line in which a run is asked for. -/
def finish (progress : Progress) : Except ArgumentFault Invocation := do
  let progress ← progress.settle
  match progress.log with
  | none => throw .missingLog
  | some log => return .run ⟨log, progress.config, progress.report⟩

/-- Ends a command line at a word that asks for something else than a run. -/
def endWith (progress : Progress) (invocation : Invocation) : Except ArgumentFault Invocation := do
  let _ ← progress.settle
  return invocation

end Progress

/-- The option with a path that has a name. -/
def optionNamed? (name : List Char) : Option PathOption :=
  if name = "config".toList then some .config
  else if name = "report".toList then some .report
  else none

/-- What an option without a path asks for. -/
def invocationNamed? (name : List Char) : Option Invocation :=
  if name = "help".toList then some .help
  else if name = "version".toList then some .version
  else none

/-- What an option of one letter asks for. -/
def invocationLettered? (letter : Char) : Option Invocation :=
  if letter = 'h' then some .help
  else if letter = 'V' then some .version
  else none

/-- Reads the words behind the separator. -/
def readValues (progress : Progress) : List String → Except ArgumentFault Invocation
  | [] => progress.finish
  | word :: words => do readValues (← progress.takeLog word) words

/-- Reads words. -/
def readWords (progress : Progress) : List String → Except ArgumentFault Invocation
  | [] => progress.finish
  | word :: words =>
    match Word.of word.toList with
    | .separator => readValues progress words
    | .value => do readWords (← progress.takeValue word) words
    | .short letter =>
      match invocationLettered? letter with
      | some invocation => progress.endWith invocation
      | none => .error .unknownWord
    | .long name attached =>
      match optionNamed? name with
      | some option => do readWords (← progress.takeOption option attached) words
      | none =>
        match invocationNamed? name, attached with
        | some invocation, none => progress.endWith invocation
        | some _, some _ => .error .surplusValue
        | none, _ => .error .unknownWord

/-- Reads a command line, without the name of the program. -/
def parse (words : List String) : Except ArgumentFault Invocation :=
  readWords {} words

end Arguments

end CaseReport
