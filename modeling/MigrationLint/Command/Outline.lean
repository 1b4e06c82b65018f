import MigrationLint.Command.Outcome
import MigrationLint.Node.OfParseTree
import MigrationLint.Node.Outline

/-!
This module contains the command that writes the outline of a file: a line for each node, if its
line lies between the limits that are given after the file.
-/

namespace MigrationLint

namespace Command

def outlineUsage : String := "Usage: python3 debug_dump.py <file> [line_start] [line_end]"

def readLimit : Option WideText → Except Failure (Option Int)
  | none => .ok none
  | some arg =>
    match Integer.read 10 arg.chars with
    | .ok n => .ok (some n)
    | .error fault => .error (.number arg fault)

def outlineLines (system : FileSystem) (file : WideText) (limits : List WideText) :
    Except Failure (List String) := do
  let first ← readLimit limits[0]?
  let last ← readLimit limits[1]?
  match system.readSource file with
  | .error error => .error (.source file error)
  | .ok source =>
    match (Node.ofParseTree file source.parse).1 with
    | none => .error .noNodes
    | some node => .ok (node.outline first last)

def outline (system : FileSystem) : List WideText → Outcome
  | [] => { status := .ok 1, stdout := unlines [outlineUsage] }
  | file :: limits =>
    match outlineLines system file limits with
    | .error failure => { status := .error failure }
    | .ok lines => { status := .ok 0, stdout := unlines (lines.map WideText.ofString) }

end Command

end MigrationLint
