import MigrationLint.Diagnostic
import MigrationLint.Path.Category
import MigrationLint.Yaml.Value

/-!
This module contains rules and the runs of rules. A rule says which kinds of nodes it handles in
which phase; a run of a rule goes over one file and carries the phase, the diagnostics and what the
rule remembers. Diagnostics can be emitted in the review phase only.
-/

namespace MigrationLint

/--
The phases of a run. A run may be told to begin a phase that no engine begins.
-/
inductive Phase where
  | prepare
  | review
  | other (name : String)
  deriving DecidableEq, Repr

namespace Phase

def name : Phase → String
  | prepare => "prepare"
  | review => "review"
  | other name => name

def ofName (name : String) : Phase :=
  if name = "prepare" then prepare
  else if name = "review" then review
  else other name

end Phase

/--
Why a rule stopped.
-/
inductive RuleError where
  | foreignRole (error : Node.ForeignRole)
  | outsideReview (rule message : String) (phase : Option Phase)
  | textForNode
  | noHandlersFor (phase : String)
  | noTree
  deriving DecidableEq, Repr

namespace RuleError

def message : RuleError → String
  | foreignRole error => error.message
  | outsideReview rule message phase =>
    rule ++ " emitted '" ++ message ++ "' during the " ++ (phase.map Phase.name).getD "None" ++
      " phase"
  | textForNode => "a role that should lead to a node is filled by a text"
  | noHandlersFor phase => "no handlers for the phase '" ++ phase ++ "'"
  | noTree => "the tree has no node"

end RuleError

/--
One step of a scripted handler.
-/
inductive Action where
  | visit
  | emit (message : String)
  | role (name : String)
  | begin (phase : Option Phase)
  deriving DecidableEq, Repr

/--
A rule that is given by lists of actions. The name of a handler is the name of its phase and the
name of its kind with an underscore between them.
-/
structure Script where
  identifier : String
  kinds : List NodeKind
  categories : List String
  handlers : List (String × List Action)
  deriving Repr

/--
A rule, ready to be run.
-/
inductive Rule where
  | isolateSeedData (options : Options)
  | scripted (script : Script)
  deriving Repr

/--
What a scripted run writes down: a node that it saw, or what filled a role.
-/
inductive Note where
  | node (phase : Option Phase) (kind : NodeKind) (line : Int)
  | role (name : String) (value : Option String)
  deriving DecidableEq, Repr

/--
A run of a rule over one file. The rule on seed data remembers the variables that hold new records,
and a scripted rule takes notes.
-/
structure RuleRun where
  rule : Rule
  phase : Option Phase := none
  errors : Array Diagnostic := #[]
  newVariables : List String := []
  notes : Array Note := #[]
  deriving Repr

/--
A run that was stopped by an error, in the state in which it stopped.
-/
structure Stopped where
  error : RuleError
  run : RuleRun
  deriving Repr

/--
What a handler does with a node.
-/
inductive Handler where
  | rememberAssignment
  | rememberDefault
  | reportCall
  | script (actions : List Action)
  deriving DecidableEq, Repr

namespace Rule

def seedDataName : String := "IsolateSeedDataCheck"

def identifier : Rule → String
  | isolateSeedData _ => seedDataName
  | scripted script => script.identifier

def url : Rule → Option String
  | isolateSeedData _ => some "http://rails-bestpractices.com/posts/20-isolating-seed-data"
  | scripted _ => none

def options : Rule → Options
  | isolateSeedData options => options
  | scripted _ => []

def kinds : Rule → List NodeKind
  | isolateSeedData _ => [.call, .localAssign, .instanceAssign, .operatorAssign]
  | scripted script => script.kinds

/--
List the categories of files that a rule applies to; an empty list stands for all files.
-/
def categories : Rule → List String
  | isolateSeedData _ => ["migration"]
  | scripted script => script.categories

def appliesTo (r : Rule) (file : WideText) : Bool :=
  Path.matchesAny file r.categories

def action? (r : Rule) (phase : Phase) (kind : NodeKind) : Option Handler :=
  match r with
  | isolateSeedData _ =>
    match phase, kind with
    | .prepare, .localAssign => some .rememberAssignment
    | .prepare, .instanceAssign => some .rememberAssignment
    | .prepare, .operatorAssign => some .rememberDefault
    | .review, .call => some .reportCall
    | _, _ => none
  | scripted script =>
    (script.handlers.lookup (phase.name ++ "_" ++ kind.name)).map .script

/--
Get the handler of a rule for a phase and a kind. Only the phases of an engine have handlers.
-/
def handler? (r : Rule) (phase : Phase) (kind : NodeKind) : Except RuleError (Option Handler) :=
  match phase with
  | .other name => .error (.noHandlersFor name)
  | phase => .ok (if kind ∈ r.kinds then r.action? phase kind else none)

def handlerNames (r : Rule) : List String :=
  [Phase.prepare, Phase.review].flatMap fun phase =>
    (NodeKind.all.filter fun kind => kind ∈ r.kinds && (r.action? phase kind).isSome).map
      fun kind => phase.name ++ "_" ++ kind.name

end Rule

namespace RuleRun

def begin (run : RuleRun) (phase : Option Phase) : RuleRun :=
  { run with phase }

def emit (run : RuleRun) (message : String) (node : Node) : Except RuleError RuleRun :=
  if run.phase = some .review then
    let diagnostic := ⟨run.rule.identifier, message, node.location⟩
    .ok { run with errors := run.errors.push diagnostic }
  else
    .error (.outsideReview run.rule.identifier message run.phase)

def orStop {α : Type} (run : RuleRun) : Except RuleError α → Except Stopped α
  | .ok a => .ok a
  | .error error => .error ⟨error, run⟩

end RuleRun

end MigrationLint
