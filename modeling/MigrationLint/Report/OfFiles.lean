import MigrationLint.Node.OfParseTree
import MigrationLint.ParseTree.Faults
import MigrationLint.Report.Basic
import MigrationLint.Rule.Engine

/-!
This module contains the checking of files. A file with syntax errors is not shown to the rules.
Several workers may share an engine: then the files reach its sink in the order in which the workers
come to them, and the reports are in the order of the files all the same.
-/

namespace MigrationLint

namespace Engine

/--
The check of a file: its report or the error that stopped a rule, the runs that were made for it,
the engine with its sink, and the log.
-/
structure FileCheck where
  outcome : Except RuleError Report.FileReport
  runs : List RuleRun
  engine : Engine
  log : List LogLine

/--
Write the log line of a file that could not be read.
-/
def unreadLine (file : WideText) (error : ReadError) : LogLine :=
  ⟨"run_checks", "parse failed for " ++ file ++ ": " ++ error.message file⟩

def visitLine (v : Node.Visit) : LogLine :=
  ⟨"ast_walker", v.render⟩

def checkParse (engine : Engine) (file : WideText) (t : ParseTree) : FileCheck :=
  let (root, trace) := Node.ofParseTree file t
  let visits := trace.visits.toList.map visitLine
  let faults := t.faultLines.map Int.ofNat
  if faults.isEmpty then
    let result := engine.run root file
    ⟨result.outcome.map (.ofDiagnostics file), result.runs, result.engine, visits ++ result.log⟩
  else
    ⟨.ok (.ofFaults file faults), [], engine, visits⟩

def checkFile (engine : Engine) (system : FileSystem) (file : WideText) : FileCheck :=
  match system.readSource file with
  | .error error => ⟨.ok (.ofError file error), [], engine, [unreadLine file error]⟩
  | .ok source => engine.checkParse file source.parse

/--
The check of several files: their reports or the error that stopped a rule, the engine with its
sink, and the log.
-/
structure Batch where
  outcome : Except RuleError (List Report.FileReport)
  engine : Engine
  log : List LogLine

def checkInTurn (engine : Engine) (system : FileSystem) : List WideText → Batch
  | [] => ⟨.ok [], engine, []⟩
  | file :: files =>
    let check := engine.checkFile system file
    match check.outcome with
    | .error error => ⟨.error error, check.engine, check.log⟩
    | .ok report =>
      let batch := check.engine.checkInTurn system files
      ⟨batch.outcome.map (report :: ·), batch.engine, check.log ++ batch.log⟩

/--
Check the files of a schedule, which lists positions and files in the order in which workers come to
them. What is returned for a position is what a worker found out there.
-/
def checkScheduled (engine : Engine) (system : FileSystem) :
    List (Nat × WideText) → List (Nat × Except RuleError Report.FileReport) × Engine × List LogLine
  | [] => ([], engine, [])
  | (position, file) :: schedule =>
    let check := engine.checkFile system file
    let (outcomes, engine, log) := check.engine.checkScheduled system schedule
    ((position, check.outcome) :: outcomes, engine, check.log ++ log)

/--
Put the outcomes of workers in the order of their positions. The first error is the error of all.
-/
def inOrder (outcomes : List (Nat × Except RuleError Report.FileReport)) :
    Except RuleError (List Report.FileReport) :=
  (outcomes.mergeSort fun a b => a.1 ≤ b.1).mapM (·.2)

/--
Check files with several workers that come to them in the order of a schedule. A single worker and a
single file need no schedule.
-/
def checkFiles (engine : Engine) (system : FileSystem) (files : List WideText) (jobs : Nat)
    (schedule : List (Nat × WideText)) : Batch :=
  if jobs ≤ 1 ∨ files.length ≤ 1 then engine.checkInTurn system files
  else
    let (outcomes, engine, log) := engine.checkScheduled system schedule
    ⟨inOrder outcomes, engine, log⟩

def scheduleInTurn (files : List WideText) : List (Nat × WideText) :=
  files.zipIdx.map fun (file, position) => (position, file)

end Engine

end MigrationLint
