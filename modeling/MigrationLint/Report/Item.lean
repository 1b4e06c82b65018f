import MigrationLint.Config.Selection
import MigrationLint.FileTree.Reading
import MigrationLint.Report.Summary

/-!
This module contains the items of a report: a file that could not be read, a line with a syntax
error, the note that syntax errors kept the checks from running, or what a check found.
-/

namespace MigrationLint

namespace Report

/--
How bad an item is.
-/
inductive Severity where
  | error
  | warning
  deriving DecidableEq, Repr

def Severity.name : Severity → String
  | error => "error"
  | warning => "warning"

/--
Where an item comes from.
-/
inductive Source where
  | rule
  | parser
  | runtime
  deriving DecidableEq, Repr

def Source.name : Source → String
  | rule => "rule"
  | parser => "parser"
  | runtime => "runtime"

/--
One entry of a report.
-/
inductive Item where
  | unreadable (file : WideText) (error : ReadError)
  | syntaxError (line : Int)
  | skipped (line : Option Int)
  | finding (diagnostic : Diagnostic)
  deriving DecidableEq, Repr

namespace Item

def severity : Item → Severity
  | unreadable .. => .error
  | syntaxError _ => .error
  | skipped _ => .warning
  | finding _ => .warning

def source : Item → Source
  | unreadable .. => .runtime
  | syntaxError _ => .parser
  | skipped _ => .runtime
  | finding _ => .rule

def rule? : Item → Option String
  | finding d => some d.rule
  | _ => none

def line? : Item → Option Int
  | unreadable .. => none
  | syntaxError line => some line
  | skipped line => line
  | finding d => some d.location.line

def message : Item → WideText
  | unreadable file error => "Failed to parse " ++ file ++ ": " ++ error.message file
  | syntaxError _ => "syntax error"
  | skipped _ =>
    "Checks were skipped because syntax errors were found. " ++
      "Fix them first, then run the checks again."
  | finding d => d.message

/--
Get the address of the page that explains an item. Only the rules that can be selected have one.
-/
def url? : Item → Option String
  | finding d => (Selection.rule? d.rule []).bind Rule.url
  | _ => none

def mark (i : Item) : Mark := ⟨some i.severity.name, i.rule?⟩

def ofFaults (lines : List Int) : List Item :=
  lines.map syntaxError ++ [skipped lines.head?]

def toJson (i : Item) : Json :=
  .object [
    ("severity", .str i.severity.name),
    ("source", .str i.source.name),
    ("rule", .ofString? i.rule?),
    ("line", .ofInt? i.line?),
    ("message", .str i.message),
    ("url", .ofString? i.url?)]

end Item

def Summary.ofItems (items : List Item) : Summary :=
  ofMarks (items.map Item.mark)

end Report

end MigrationLint
