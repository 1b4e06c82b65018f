import MigrationLint.Rule.Script

/-!
This module contains the engine, which runs rules over the nodes of a file in two phases. Every file
gets runs of its own. The diagnostics of a file come in the order of the phases, of the nodes and of
the rules, and they reach the sink together, when the last phase has ended without an error.
-/

namespace MigrationLint

/--
A line of a log: the part of the program that writes it, and the message.
-/
structure LogLine where
  source : String
  message : WideText
  deriving DecidableEq, Repr

def LogLine.render (l : LogLine) : WideText :=
  l.source ++ " DEBUG " ++ l.message

namespace RuleRun

def handle (run : RuleRun) (phase : Phase) (n : Node) : Except Stopped RuleRun :=
  match run.rule.handler? phase n.kind with
  | .error error => .error ⟨error, run⟩
  | .ok none => .ok run
  | .ok (some handler) => run.apply handler n

end RuleRun

/--
An engine: the rules that it runs and the sink that it fills.
-/
structure Engine where
  rules : List Rule
  sink : Sink := #[]

namespace Engine

/--
The runs of all rules over a file, and the diagnostics so far.
-/
structure Progress where
  runs : List RuleRun
  emitted : Array Diagnostic := #[]

/--
Let every run handle a node. After an error the runs are as they were when it arose.
-/
def visitNode (phase : Phase) (n : Node) : List RuleRun → Except (RuleError × List RuleRun)
    (List RuleRun × List Diagnostic)
  | [] => .ok ([], [])
  | run :: runs =>
    let before := run.errors.size
    match run.handle phase n with
    | .error stopped => .error (stopped.error, stopped.run :: runs)
    | .ok run =>
      match visitNode phase n runs with
      | .error (error, runs) => .error (error, run :: runs)
      | .ok (runs, later) => .ok (run :: runs, (run.errors.extract before).toList ++ later)

/--
Go over the nodes of a file in one phase.
-/
def visitNodes (phase : Phase) (progress : Progress) :
    List Node → Except (RuleError × List RuleRun) Progress
  | [] => .ok progress
  | n :: ns =>
    match visitNode phase n progress.runs with
    | .error failure => .error failure
    | .ok (runs, emitted) => visitNodes phase ⟨runs, progress.emitted.appendList emitted⟩ ns

def runPhase (phase : Phase) (nodes : List Node) (progress : Progress) :
    Except (RuleError × List RuleRun) Progress :=
  visitNodes phase { progress with runs := progress.runs.map (·.begin (some phase)) } nodes

/--
The result of a run of the engine: the diagnostics or an error, all runs as they ended (also those
of rules that do not apply to the file), the engine with its sink, and the log.
-/
structure Result where
  outcome : Except RuleError (List Diagnostic)
  runs : List RuleRun
  engine : Engine
  log : List LogLine

/--
Put the runs that took part back among those of the rules that do not apply.
-/
def rejoin (file : WideText) : List Rule → List RuleRun → List RuleRun
  | [], _ => []
  | rule :: rules, [] => { rule } :: rejoin file rules []
  | rule :: rules, run :: runs =>
    if rule.appliesTo file then run :: rejoin file rules runs
    else { rule } :: rejoin file rules (run :: runs)

/--
Write the log line of a rule that does not apply to a file.
-/
def skippedLine (file : WideText) (rule : Rule) : LogLine :=
  ⟨"rule_engine", rule.identifier ++ " skipped for " ++ file⟩

/--
Write the log line of a phase that has ended. Durations are written as zero.
-/
def phaseLine (file : WideText) (count : Nat) (phase : Phase) : LogLine :=
  ⟨"rule_engine", phase.name ++ " pass over " ++ file ++ ": " ++ toString count ++ " nodes, 0 ms"⟩

/--
Run the rules of an engine over a file. Without a rule that applies there is nothing to do.
-/
def run (engine : Engine) (root : Option Node) (file : WideText) : Result :=
  let runs := (engine.rules.filter (·.appliesTo file)).map fun rule => { rule }
  let skipped := (engine.rules.filter fun rule => !rule.appliesTo file).map (skippedLine file)
  let ended (outcome : Except RuleError (List Diagnostic)) (runs : List RuleRun) (sink : Sink)
      (log : List LogLine) : Result :=
    ⟨outcome, rejoin file engine.rules runs, { engine with sink }, skipped ++ log⟩
  if runs.isEmpty then ended (.ok []) [] engine.sink []
  else
    match root with
    | none => ended (.error .noTree) runs engine.sink []
    | some root =>
      let nodes := root.preorder
      let line := phaseLine file nodes.length
      match runPhase .prepare nodes ⟨runs, #[]⟩ with
      | .error (error, runs) => ended (.error error) runs engine.sink []
      | .ok progress =>
        match runPhase .review nodes progress with
        | .error (error, runs) => ended (.error error) runs engine.sink [line .prepare]
        | .ok progress =>
          let diagnostics := progress.emitted.toList
          ended (.ok diagnostics) progress.runs (engine.sink.extend diagnostics)
            [line .prepare, line .review]

def runAll (engine : Engine) : List (Option Node × WideText) → List Result
  | [] => []
  | (root, file) :: files =>
    let result := engine.run root file
    result :: result.engine.runAll files

end Engine

end MigrationLint
