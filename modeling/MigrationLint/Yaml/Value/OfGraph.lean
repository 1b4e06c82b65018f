import MigrationLint.Yaml.Reader
import MigrationLint.Yaml.Shape

/-!
This module contains the values of documents, which are put together from the shapes of their nodes.
-/

namespace MigrationLint

namespace Yaml

namespace Value

/--
Put a value under a key. If the key is there, it keeps its place and its own form.
-/
def insert {α : Type} (key : Scalar) (value : α) : List (Scalar × α) → List (Scalar × α)
  | [] => [(key, value)]
  | (k, v) :: entries =>
    if k.same key then (k, value) :: entries else (k, v) :: insert key value entries

def keyOf (c : Graph.Check) (number : Nat) : Except Fault Scalar :=
  match c.shape? number with
  | some (.scalar value) => .ok value
  | _ => .error .malformed

def ofNode (fuel : Nat) (c : Graph.Check) (around : List Nat) (number : Nat) :
    Except Fault Value :=
  match fuel with
  | 0 => .error .malformed
  | fuel + 1 =>
    if around.contains number then .ok .enclosing
    else
      let value := ofNode fuel c (number :: around)
      match c.shape? number with
      | some (.scalar value) => .ok (.scalar value)
      | some (.list items) => (items.mapM value).map .list
      | some (.pairs entries) =>
        (entries.mapM fun (k, v) => do return (← value k, ← value v)).map .pairs
      | some (.mapping entries) => do
        let entries ← entries.foldlM (fun all (k, v) => do
          return insert (← keyOf c k) (← value v) all) []
        return .mapping entries
      | some (.set keys) => do
        let items ← keys.foldlM (fun all k => do return insert (← keyOf c k) () all) []
        return .set (items.map (·.1))
      | _ => .error .malformed

/--
Read the one document of a text. No document stands for null.
-/
def ofText (limits : Graph.Limits) : Reader := fun text => do
  let (graph, root?) ← Graph.ofText? limits text.toList
  match root? with
  | none => return .scalar .null
  | some root => ofNode (graph.size + 1) (← graph.check limits root) [] root

end Value

end Yaml

end MigrationLint
