import MigrationLint.Yaml.Graph
import MigrationLint.Yaml.Value.OfText

/-!
This module contains the shapes of the nodes of a graph. The merges of a mapping are carried out
when the mapping is reached, level by level from the root, and every scalar and key is checked on
the way.
-/

namespace MigrationLint

namespace Yaml

namespace Graph

def content? (g : Graph) (number : Nat) : Option Content :=
  match g[number]? with
  | some n => some n.content
  | none => none

def entries? (g : Graph) (number : Nat) : Option (List (Nat × Nat)) :=
  match g.content? number with
  | some (.mapping entries) => some entries
  | _ => none

def setEntries (g : Graph) (number : Nat) (entries : List (Nat × Nat)) : Graph :=
  g.modify number fun n => { n with content := .mapping entries }

def tag (g : Graph) (number : Nat) : String :=
  match g[number]? with
  | some n => n.tag
  | none => ""

/--
Carry out the merges of a mapping from an entry on: the entries of the merged mappings come first,
and those of several in one merge from the last to the first. A sign for a value is a text as a key.
The links are the merges that may still be carried out for the sake of this one.
-/
def mergeFrom (fuel links : Nat) (g : Graph) (number index : Nat) (merged : List (Nat × Nat)) :
    Except Fault Graph :=
  match fuel with
  | 0 => .error .malformed
  | fuel + 1 =>
    let entries := (g.entries? number).getD []
    match entries[index]? with
    | none => .ok (if merged.isEmpty then g else g.setEntries number (merged ++ entries))
    | some (key, value) =>
      if g.tag key = Tag.merge then
        let g := g.setEntries number (entries.eraseIdx index)
        let mergeOne (g : Graph) (source : Nat) : Except Fault (Graph × List (Nat × Nat)) :=
          match g.entries? source, links with
          | none, _ => .error .malformed
          | some _, 0 => .error .tooDeep
          | some _, links + 1 => do
            let g ← mergeFrom fuel links g source 0 []
            return (g, (g.entries? source).getD [])
        match g.content? value with
        | some (.mapping _) => do
          let (g, more) ← mergeOne g value
          mergeFrom fuel links g number index (merged ++ more)
        | some (.sequence sources) => do
          let (g, all) ← sources.foldlM (fun (g, all) source => do
            let (g, more) ← mergeOne g source
            return (g, more :: all)) (g, ([] : List (List (Nat × Nat))))
          mergeFrom fuel links g number index (merged ++ all.flatten)
        | _ => .error .malformed
      else if g.tag key = Tag.value then
        let g : Graph := g.modify key fun n => { n with tag := Tag.str }
        mergeFrom fuel links g number (index + 1) merged
      else mergeFrom fuel links g number (index + 1) merged

def entryCount (g : Graph) : Nat :=
  g.foldl (fun n node =>
    match node.content with
    | .scalar _ => n
    | .sequence items => n + items.length
    | .mapping entries => n + entries.length) 0

def merge (limits : Limits) (g : Graph) (number : Nat) : Except Fault Graph :=
  mergeFrom ((g.entryCount + 2) * (g.entryCount + 2)) limits.links g number 0 []

/--
Get the text of a node with the tag of a scalar. A mapping has the text that its sign for a value
leads to, which may lead in a circle.
-/
def scalarText (links : Nat) (g : Graph) (number : Nat) : Except Fault WideText :=
  match g.content? number with
  | some (.scalar text) => .ok text
  | some (.mapping entries) =>
    match entries.find? fun (key, _) => g.tag key = Tag.value, links with
    | some _, 0 => .error .tooDeep
    | some (_, value), links + 1 => scalarText links g value
    | none, _ => .error .malformed
  | _ => .error .malformed

/--
Get the scalar of a node with the tag of a scalar. A date cannot be written as a mapping.
-/
def scalarOf (limits : Limits) (g : Graph) (number : Nat) : Except Fault Scalar := do
  if g.tag number ∉ Tag.scalars then throw .malformed
  let text ← scalarText limits.links g number
  if g.tag number = Tag.timestamp ∧ (g.entries? number).isSome then throw .mappedDate
  Scalar.ofText number (g.tag number) text

def isCollection (g : Graph) (number : Nat) : Bool :=
  g.tag number ∈ Tag.collections

/--
What a node was found to be. The parts of a collection are given by their numbers.
-/
inductive Shape where
  | scalar (value : Scalar)
  | list (items : List Nat)
  | pairs (entries : List (Nat × Nat))
  | mapping (entries : List (Nat × Nat))
  | set (keys : List Nat)
  | pending
  deriving Repr

/--
The state of checking: the limits, the graph with the merges so far, the shapes of the nodes that
were reached, by their numbers, and the collections among them that are still to be checked.
-/
structure Check where
  limits : Limits
  graph : Graph
  shapes : Array (Option Shape)
  waiting : List Nat := []

namespace Check

def shape? (c : Check) (number : Nat) : Option Shape :=
  c.shapes.getD number none

def record (c : Check) (number : Nat) (shape : Shape) : Check :=
  { c with shapes := c.shapes.setIfInBounds number (some shape) }

/--
Check a node that was reached. Collections wait.
-/
def reach (c : Check) (number : Nat) : Except Fault Check :=
  if (c.shape? number).isSome then .ok c
  else if c.graph.isCollection number then
    .ok { c.record number .pending with waiting := c.waiting ++ [number] }
  else do
    return c.record number (.scalar (← c.graph.scalarOf c.limits number))

/--
Check an entry of a mapping. A collection cannot be a key.
-/
def entry (c : Check) (entry : Nat × Nat) : Except Fault Check := do
  let c ← c.reach entry.1
  if c.graph.isCollection entry.1 then throw .malformed
  c.reach entry.2

def mapping (c : Check) (number : Nat) : Except Fault (Check × List (Nat × Nat)) := do
  if (c.graph.entries? number).isNone then throw .malformed
  let graph ← c.graph.merge c.limits number
  let entries := (graph.entries? number).getD []
  return (← entries.foldlM entry { c with graph }, entries)

def pair (c : Check) (number : Nat) : Except Fault (Check × Nat × Nat) := do
  match c.graph.entries? number with
  | some [(key, value)] => return (← (← c.reach key).reach value, key, value)
  | _ => throw .malformed

def collection (c : Check) (number : Nat) : Except Fault Check := do
  let tag := c.graph.tag number
  if tag = Tag.map then
    let (c, entries) ← c.mapping number
    return c.record number (.mapping entries)
  else if tag = Tag.set then
    let (c, entries) ← c.mapping number
    return c.record number (.set (entries.map (·.1)))
  else
    match c.graph.content? number with
    | some (.sequence items) =>
      if tag = Tag.seq then
        return (← items.foldlM reach c).record number (.list items)
      else
        let (c, entries) ← items.foldlM (fun (c, entries) item => do
          let (c, entry) ← pair c item
          return (c, entries ++ [entry])) (c, [])
        return c.record number (.pairs entries)
    | _ => throw .malformed

/--
Check the collections that wait, and those that they lead to, in the order in which they were
reached.
-/
def all (fuel : Nat) (c : Check) : Except Fault Check :=
  match fuel with
  | 0 => .error .malformed
  | fuel + 1 =>
    match c.waiting with
    | [] => .ok c
    | number :: waiting => do
      let c ← { c with waiting }.collection number
      c.all fuel

end Check

def check (limits : Limits) (g : Graph) (root : Nat) : Except Fault Check := do
  let c ← Check.reach { limits, graph := g, shapes := Array.replicate g.size none } root
  c.all (g.size + 1)

end Graph

end Yaml

end MigrationLint
