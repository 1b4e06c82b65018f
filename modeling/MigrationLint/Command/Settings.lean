import MigrationLint.Config.Selection
import MigrationLint.Number.Integer

/-!
This module contains the settings of a check, as the arguments of a command give them. The two
switches may stand anywhere and any number of times. Every other option takes the argument that
follows its first occurrence, and what is left over are the paths.
-/

namespace MigrationLint

namespace Command

/--
The forms of a report.
-/
inductive Format where
  | json
  | text
  deriving DecidableEq, Repr

/--
Why a command is refused.
-/
inductive UsageError where
  | absent (flag : WideText)
  | missingValue (flag : WideText)
  | unknownChecks (names : List WideText) (valid : List String)
  | badNumber (text : WideText) (fault : Integer.Fault)
  | noWorkers
  | noFiles
  | config (error : ConfigError)
  deriving DecidableEq, Repr

def textFlag : WideText := "--text"

def debugFlag : WideText := "--debug"

def checksFlag : WideText := "--checks"

def configFlag : WideText := "--config"

def jobsFlag : WideText := "--jobs"

def UsageError.message : UsageError → WideText
  | absent flag => quoted flag ++ " is not in list"
  | missingValue flag => "Missing value after " ++ flag ++ "."
  | unknownChecks names valid =>
    "Unknown check(s): " ++ WideText.join ", " names ++ ". Valid checks: " ++
      String.intercalate ", " valid ++ "."
  | badNumber text fault => fault.message text
  | noWorkers => jobsFlag ++ " must be a positive integer."
  | noFiles => "No files provided."
  | config error => error.message

/--
What the switches among arguments ask for.
-/
structure Switches where
  format : Format
  debug : Bool
  deriving DecidableEq, Repr

def Switches.ofArgs (args : List WideText) : Switches where
  format := if textFlag ∈ args then .text else .json
  debug := debugFlag ∈ args

def dropSwitches (args : List WideText) : List WideText :=
  args.filter fun arg => arg ≠ textFlag ∧ arg ≠ debugFlag

def popOption (flag : WideText) :
    List WideText → Except UsageError (WideText × List WideText)
  | [] => .error (.absent flag)
  | arg :: args =>
    if arg = flag then
      match args with
      | [] => .error (.missingValue flag)
      | value :: args => .ok (value, args)
    else
      match popOption flag args with
      | .ok (value, args) => .ok (value, arg :: args)
      | .error error => .error error

def takeOption (flag : WideText) (args : List WideText) :
    Except UsageError (Option WideText × List WideText) :=
  if flag ∈ args then
    match popOption flag args with
    | .ok (value, args) => .ok (some value, args)
    | .error error => .error error
  else .ok (none, args)

/--
Split a list of names at its commas. Blanks around a name do not count, and empty names are left
out.
-/
def splitNames (value : WideText) : List WideText :=
  ((value.splitAt ',').map Blank.trim).filter (· ≠ "")

def distinct (names : List WideText) : List WideText :=
  names.foldr List.insert []

def readChecks (value : WideText) : Except UsageError (List String) :=
  let names := splitNames value
  let unknown := distinct (names.filter fun name => (Selection.check? name).isNone)
  if unknown.isEmpty then .ok (names.filterMap Selection.check?)
  else .error (.unknownChecks (WideText.sort unknown) (Selection.sortNames Selection.allChecks))

def readJobs (value : WideText) : Except UsageError Nat :=
  match Integer.read 10 value.chars with
  | .error fault => .error (.badNumber value fault)
  | .ok n => if n < 1 then .error .noWorkers else .ok n.toNat

/--
The settings of a check. An empty list of enabled checks enables all.
-/
structure Settings where
  enabled : List String
  config? : Option WideText
  jobs : Nat
  paths : List WideText
  deriving DecidableEq, Repr

/--
Read the settings from arguments without switches.
-/
def Settings.ofArgs (args : List WideText) : Except UsageError Settings := do
  let (checks?, args) ← takeOption checksFlag args
  let enabled ← checks?.elim (.ok []) readChecks
  let (config?, args) ← takeOption configFlag args
  let (jobs?, paths) ← takeOption jobsFlag args
  let jobs ← jobs?.elim (.ok 1) readJobs
  if paths.isEmpty then .error .noFiles
  else .ok { enabled, config?, jobs, paths }

end Command

end MigrationLint
