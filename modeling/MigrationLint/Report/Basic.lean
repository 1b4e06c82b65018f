import MigrationLint.Report.Item
import MigrationLint.Report.Timing

/-!
This module contains reports on files, the JSON object and the text that they are written as, and
the exit status that they lead to. The text lists what the JSON object lists, in the same order, and
the number at its end is the number of the diagnostics.
-/

namespace MigrationLint

namespace Report

/--
The report on one file. A file that could not be read comes with the text of the error.
-/
structure FileReport where
  file : WideText
  error? : Option WideText
  items : List Item
  diagnostics : List Diagnostic
  deriving DecidableEq, Repr

namespace FileReport

def isOk (r : FileReport) : Bool := r.error?.isNone

def summary (r : FileReport) : Summary := .ofItems r.items

/--
Report a file that could not be read.
-/
def ofError (file : WideText) (error : ReadError) : FileReport :=
  let item := Item.unreadable file error
  ⟨file, some item.message, [item], []⟩

def ofFaults (file : WideText) (lines : List Int) : FileReport :=
  ⟨file, none, Item.ofFaults lines, []⟩

def ofDiagnostics (file : WideText) (diagnostics : List Diagnostic) : FileReport :=
  ⟨file, none, diagnostics.map .finding, diagnostics⟩

def place (r : FileReport) (i : Item) : WideText :=
  match i.line? with
  | some line => Location.render ⟨r.file, line⟩
  | none => r.file

def entries (r : FileReport) : List WideText :=
  match r.error? with
  | some error => [error]
  | none => r.items.map fun i => r.place i ++ " - " ++ i.message

def findingCount (r : FileReport) : Nat :=
  if r.isOk then (r.items.filter (·.source = .rule)).length else 0

def toJson (r : FileReport) : Json :=
  .object [
    ("file", .str r.file),
    ("ok", .bool r.isOk),
    ("error", .ofText? r.error?),
    ("items", .array (r.items.map Item.toJson)),
    ("summary", r.summary.toJson),
    ("timing_ms", Timing.unmeasured)]

end FileReport

end Report

/--
The reports on all files, and the names of the checks that were run.
-/
structure Report where
  files : List Report.FileReport
  checks : List String
  deriving DecidableEq, Repr

namespace Report

def items (r : Report) : List Item := r.files.flatMap (·.items)

def diagnostics (r : Report) : List Diagnostic := r.files.flatMap (·.diagnostics)

def summary (r : Report) : Summary := .ofItems r.items

def status (r : Report) : Nat := if r.diagnostics.isEmpty then 0 else 1

def toJson (r : Report) : Json :=
  .object [
    ("ok", .bool true),
    ("results", .array (r.files.map FileReport.toJson)),
    ("summary", r.summary.toJson),
    ("timing_ms", .object [("total", .int 0)]),
    ("checks", .array (r.checks.map fun (check : String) => .str check))]

def entries (r : Report) : List WideText := r.files.flatMap (·.entries)

def findingCount (r : Report) : Nat :=
  r.files.foldr (fun file count => file.findingCount + count) 0

def closing (count : Nat) : List WideText :=
  if count = 0 then ["No warning found. Cool!"]
  else ["", "Found " ++ toString count ++ " warning" ++ (if count = 1 then "" else "s") ++ "."]

def timingLine : WideText := "[timing] total: 0 ms."

def lines (r : Report) : List WideText :=
  r.entries ++ closing r.findingCount ++ [timingLine]

end Report

end MigrationLint
