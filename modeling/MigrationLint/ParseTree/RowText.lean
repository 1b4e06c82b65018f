import MigrationLint.ParseTree.Rows

/-!
This module contains the text of the flat form of a parse tree, as a parser hands it over: a line
for every row, with tabs between its type, its flags, the range of bytes, the line on which it
starts, its field and the number of its children. A dash stands for what a row does not have.
-/

namespace MigrationLint

namespace ParseTree

def absentOr {α : Type} (read : String → Option α) (text : String) : Option (Option α) :=
  if text = "-" then some none else (read text).map some

def hasFlag (flag : Char) (text : String) : Bool := text.toList.contains flag

def Row.ofLine? (line : List Char) : Option Row :=
  match (line.splitOn '\t').map String.ofList with
  | [type, flags, start, stop, startRow, field, childCount] => do
    let start ← absentOr String.toNat? start
    let stop ← absentOr String.toNat? stop
    return {
      type
      isNamed := hasFlag 'n' flags
      isMissing := hasFlag 'm' flags
      hasError := hasFlag 'e' flags
      range := start.bind fun start => stop.map fun stop => (start, stop)
      startRow := ← startRow.toNat?
      field := ← absentOr some field
      childCount := ← childCount.toNat? }
  | _ => none

def unparsed : ParseTree :=
  node ⟨"ERROR", true, false, true, none, 0, none⟩ []

/--
Read the parse tree of a source from the text of its rows. A text that is none counts as no parse.
-/
def ofText (source : ByteArray) (text : String) : ParseTree :=
  let lines := (text.toList.splitOn '\n').filter (· ≠ [])
  match lines.mapM Row.ofLine? with
  | none => unparsed
  | some rows => (ofRows source rows).head?.getD unparsed

end ParseTree

end MigrationLint
