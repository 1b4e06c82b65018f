import MigrationLint.ParseTree.Basic
import MigrationLint.Text.Utf8

/-!
This module contains the flat form of a parse tree: its rows in pre-order, each with the range of
bytes that it spans and the number of its children.
-/

namespace MigrationLint

namespace ParseTree

/--
One row of the flat form. A row without text has no range.
-/
structure Row where
  type : String
  isNamed : Bool
  isMissing : Bool
  hasError : Bool
  range : Option (Nat × Nat)
  startRow : Nat
  field : Option String
  childCount : Nat
  deriving DecidableEq, Repr

/--
Label a row; its text is the part of the source that it spans, decoded on its own.
-/
def Row.label (source : ByteArray) (row : Row) : Label where
  type := row.type
  isNamed := row.isNamed
  isMissing := row.isMissing
  hasError := row.hasError
  text? := row.range.map fun (start, stop) => Utf8.decodeLossy (source.extract start stop)
  startRow := row.startRow
  field := row.field

def Row.graft (source : ByteArray) (row : Row) (following : List ParseTree) : List ParseTree :=
  node (row.label source) (following.take row.childCount) :: following.drop row.childCount

def ofRows (source : ByteArray) (rows : List Row) : List ParseTree :=
  rows.foldr (Row.graft source) []

end ParseTree

end MigrationLint
