import MigrationLint.Config.Basic
import MigrationLint.Rule.Engine

/-!
This module contains the selection of checks. A configuration selects the checks that it names and
must not name others; without one all checks are selected. A list of enabled checks narrows the
selection down, unless it is empty.
-/

namespace MigrationLint

namespace Config

/--
A configuration as it may be written down by hand: null stands for no options.
-/
abbrev Draft := Table WideText (Option Options)

def toDraft (config : Config) : Draft :=
  config.map fun (name, options) => (name, some options)

end Config

namespace Selection

def allChecks : List String := [Rule.seedDataName]

def sortNames (names : List String) : List String :=
  names.mergeSort fun a b => !decide (b < a)

def rule? (name : String) (options : Options) : Option Rule :=
  if name = Rule.seedDataName then some (.isolateSeedData options) else none

def check? (name : WideText) : Option String :=
  allChecks.find? fun check => WideText.ofString check = name

def isEnabled (enabled : List String) (name : String) : Bool :=
  enabled.isEmpty || name ∈ enabled

/--
List the selected checks. An empty list of enabled checks narrows nothing down.
-/
def selected (enabled : List String) (draft? : Option Config.Draft) :
    Except ConfigError (List String) :=
  match draft? with
  | none => .ok ((sortNames allChecks).filter (isEnabled enabled))
  | some draft =>
    let unknown := (Table.names draft).filter fun name => (check? name).isNone
    if unknown.isEmpty then .ok (((Table.names draft).filterMap check?).filter (isEnabled enabled))
    else .error (.unknownChecks (WideText.sort unknown) (sortNames allChecks))

/--
Get the options of a check. Null and no entry give none.
-/
def optionsFor (draft? : Option Config.Draft) (name : String) : Options :=
  ((Table.get? (WideText.ofString name) (draft?.getD [])).getD none).getD []

end Selection

def Engine.build (enabled : List String) (draft? : Option Config.Draft) (sink : Sink) :
    Except ConfigError Engine :=
  match Selection.selected enabled draft? with
  | .error error => .error error
  | .ok names =>
    .ok ⟨names.filterMap fun name => Selection.rule? name (Selection.optionsFor draft? name), sink⟩

end MigrationLint
