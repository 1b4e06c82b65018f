import MigrationLint.ParseTree.Basic

/-!
This module contains the lines on which a parser met a fault, in ascending order and each once. A
row is a fault if it has the type of errors or is missing. What stands below a fault is not
searched, nor is a tree without the flag that the parser sets above a fault.
-/

namespace MigrationLint

namespace ParseTree

def isFault (t : ParseTree) : Bool := t.type == "ERROR" || t.label.isMissing

/--
Insert a line into an ascending list of lines, unless it is there.
-/
def insertLine (line : Nat) : List Nat → List Nat
  | [] => [line]
  | l :: lines =>
    if line < l then line :: l :: lines
    else if line = l then l :: lines
    else l :: insertLine line lines

def faultLines (t : ParseTree) : List Nat :=
  if t.label.hasError then go [t] [] else []
where
  go (stack : List ParseTree) (lines : List Nat) : List Nat :=
    match stack with
    | [] => lines
    | t :: stack =>
      if t.isFault then go stack (insertLine t.line lines)
      else if t.label.hasError then go (t.children.reverse ++ stack) lines
      else go stack lines
  termination_by sizes stack
  decreasing_by
    all_goals
      have := size_eq t
      simp only [sizes, sizes_append, sizes_reverse]
      omega

end ParseTree

end MigrationLint
