import MigrationLint.ParseTree.Basic

/-!
This module contains the names that a tree binds as locals: targets of assignments, parameters and
variables that receive an exception. A row binds the names that `ownNames` lists, and the names of a
tree are those of all rows that are reached through named children.
-/

namespace MigrationLint

namespace ParseTree

def bindingContainers : List String :=
  ["left_assignment_list", "destructured_left_assignment", "rest_assignment", "method_parameters",
   "block_parameters", "lambda_parameters", "exception_variable"]

def namedParameters : List String :=
  ["optional_parameter", "keyword_parameter", "splat_parameter", "hash_splat_parameter",
   "block_parameter"]

def isIdentifier (t : ParseTree) : Bool := t.type == "identifier"

def identifierIn (t : ParseTree) (field : String) : List String :=
  ((t.child? field).filter isIdentifier).toList.map text

def ownNames (t : ParseTree) : List String :=
  if t.type = "assignment" ∨ t.type = "operator_assignment" then t.identifierIn "left"
  else if t.type ∈ bindingContainers then (t.namedChildren.filter isIdentifier).map text
  else if t.type ∈ namedParameters then (t.child? "name").toList.map text
  else if t.type = "for" then t.identifierIn "pattern"
  else []

/--
Collect the names that a tree binds, each once, with a stack of the trees that are still to be
searched.
-/
def localNames (t : ParseTree) : List String :=
  go [t] []
where
  go (stack : List ParseTree) (names : List String) : List String :=
    match stack with
    | [] => names
    | t :: stack =>
      go (t.namedChildren.reverse ++ stack)
        (t.ownNames.foldl (fun names name => names.insert name) names)
  termination_by sizes stack
  decreasing_by
    have := sizes_namedChildren_lt t
    simp only [sizes, sizes_append, sizes_reverse]
    omega

end ParseTree

end MigrationLint
