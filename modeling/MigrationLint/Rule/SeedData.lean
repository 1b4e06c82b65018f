import MigrationLint.Rule.Basic

/-!
This module contains the rule on seed data: a migration should not insert records. In the first
phase the rule remembers the variables that a new record is assigned to, plainly or by default. In
the second phase it reports every call that creates a record, and every call that saves one of the
variables.
-/

namespace MigrationLint

namespace SeedData

def message : String := "isolate seed data"

def createMessages : List String := ["create", "create!"]

def saveMessages : List String := ["save", "save!"]

def nodeIn (n : Node) (name : String) : Except RuleError (Option Node) :=
  match n.role name with
  | .error error => .error (.foreignRole error)
  | .ok none => .ok none
  | .ok (some (.node target)) => .ok (some target)
  | .ok (some (.text _)) => .error .textForNode

def shownIn (n : Node) (name : String) : Except RuleError (Option String) :=
  match n.role name with
  | .error error => .error (.foreignRole error)
  | .ok target => .ok (target.map Node.Target.show)

/--
Ask a node for a role that is filled by a text; a node in its place counts as no text.
-/
def textIn (n : Node) (name : String) : Except RuleError (Option String) :=
  match n.role name with
  | .error error => .error (.foreignRole error)
  | .ok (some (.text value)) => .ok (some value)
  | .ok _ => .ok none

def assignsNew (n : Node) : Except RuleError Bool := do
  match ← nodeIn n "right_value" with
  | none => return false
  | some right =>
    if right.kind = .call then return (← textIn right "message") == some "new"
    else return false

/--
Get the name of the variable of an assignment of a new record. No left side goes by the name `None`.
-/
def newVariable? (n : Node) : Except RuleError (Option String) := do
  if ← assignsNew n then return some ((← shownIn n "left_value").getD "None")
  else return none

def newDefault? (n : Node) : Except RuleError (Option String) := do
  if (← textIn n "operator") != some "||=" then return none
  else
    match ← nodeIn n "left_value" with
    | none => return none
    | some left =>
      if left.kind = .localVar ∨ left.kind = .instanceVar then newVariable? n else return none

def insertsRecord (newVariables : List String) (n : Node) : Except RuleError Bool := do
  let message ← textIn n "message"
  if message.any (· ∈ createMessages) then return true
  else if message.any (· ∈ saveMessages) then
    return (← shownIn n "subject").any (· ∈ newVariables)
  else return false

end SeedData

namespace RuleRun

def remember (run : RuleRun) : Option String → RuleRun
  | some name => { run with newVariables := run.newVariables.insert name }
  | none => run

def reportCall (run : RuleRun) (n : Node) : Except RuleError RuleRun := do
  if ← SeedData.insertsRecord run.newVariables n then run.emit SeedData.message n
  else return run

end RuleRun

end MigrationLint
