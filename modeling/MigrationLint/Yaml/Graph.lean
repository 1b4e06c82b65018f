import MigrationLint.Yaml.Tag
import MigrationLint.Yaml.Token.Stream

/-!
This module contains the graph of a document: its nodes, numbered in the order in which they start,
with their tags. An alias is the number of the node that its anchor names, which may be a node that
the alias stands in.
-/

namespace MigrationLint

namespace Yaml

/--
What a node holds.
-/
inductive Content where
  | scalar (text : WideText)
  | sequence (items : List Nat)
  | mapping (entries : List (Nat × Nat))
  deriving DecidableEq, Repr

/--
A node of a document.
-/
structure GraphNode where
  tag : String
  content : Content
  deriving DecidableEq, Repr

abbrev Graph := Array GraphNode

namespace Graph

/--
How far reading goes: how deep nodes may stand in each other, and through how many mappings the
merges and the signs for a value of a mapping may lead.
-/
structure Limits where
  nesting : Nat
  links : Nat
  deriving DecidableEq, Repr

/--
The state of reading tokens: the limits, the tokens still to be read, the fault that stands after
them, the nodes so far, the numbers that anchors name, and the expansions of the handles of tags.
-/
structure Reading where
  limits : Limits
  tokens : List Token
  fault : Fault
  nodes : Graph := #[]
  anchors : List (String × Nat) := []
  handles : List (String × String) := []

abbrev ReadM := StateT Reading (Except Fault)

def defaultHandles : List (String × String) :=
  [("!", "!"), ("!!", Tag.language)]

def peek : ReadM Token := do
  let r ← get
  match r.tokens with
  | t :: _ => return t
  | [] => throw r.fault

def pass : ReadM Unit :=
  modify fun r => { r with tokens := r.tokens.drop 1 }

def expect (t : Token) : ReadM Unit := do
  if (← peek) = t then pass else throw .malformed

def add (n : GraphNode) : ReadM Nat := do
  let r ← get
  set { r with nodes := r.nodes.push n }
  return r.nodes.size

def setContent (number : Nat) (content : Content) : ReadM Unit :=
  modify fun r => { r with nodes := r.nodes.modify number fun n => { n with content } }

/--
Add the node of a scalar that is not written.
-/
def addEmpty : ReadM Nat := add ⟨Tag.null, .scalar ""⟩

/--
The anchor and the tag in front of a node.
-/
structure Properties where
  anchor : Option String := none
  tag : Option String := none

def expandTag (handle : Option String) (suffix : String) : ReadM String := do
  match handle with
  | none => return suffix
  | some handle =>
    match (← get).handles.lookup handle with
    | some expansion => return expansion ++ suffix
    | none => throw .malformed

def properties : ReadM Properties := do
  match ← peek with
  | .anchor anchor =>
    pass
    match ← peek with
    | .tag handle suffix =>
      pass
      return ⟨some anchor, some (← expandTag handle suffix)⟩
    | _ => return ⟨some anchor, none⟩
  | .tag handle suffix =>
    pass
    match ← peek with
    | .anchor anchor =>
      pass
      return ⟨some anchor, some (← expandTag handle suffix)⟩
    | _ => return ⟨none, some (← expandTag handle suffix)⟩
  | _ => return {}

def Properties.isOpen (p : Properties) : Bool :=
  p.tag.all (· == "!")

def Properties.scalarTag (p : Properties) (text : WideText) (isPlain : Bool) : String :=
  match p.tag with
  | none => if isPlain then Tag.ofPlain text else Tag.str
  | some tag => if tag = "!" then Tag.ofPlain text else tag

def Properties.collectionTag (p : Properties) (default : String) : String :=
  if p.isOpen then default else p.tag.getD default

/--
Add a node with properties. No two nodes have the same anchor.
-/
def addWith (p : Properties) (tag : String) (content : Content) : ReadM Nat := do
  match p.anchor with
  | none => add ⟨tag, content⟩
  | some anchor =>
    if ((← get).anchors.lookup anchor).isSome then throw .malformed
    let number ← add ⟨tag, content⟩
    modify fun r => { r with anchors := (anchor, number) :: r.anchors }
    return number

def endsEntry (isIndentless : Bool) (t : Token) : Bool :=
  t = .blockEntry || t = .blockEnd || (isIndentless && (t = .key || t = .value))

def endsBlockPart (t : Token) : Bool :=
  t = .key || t = .value || t = .blockEnd

mutual

/--
Read a node that stands in a count of collections. Outside of brackets it may be a block, and after
a key also a sequence without indentation of its own.
-/
def node (fuel depth : Nat) (isBlock mayBeIndentless : Bool) : ReadM Nat := do
  match fuel with
  | 0 => throw .malformed
  | fuel + 1 =>
    if (← get).limits.nesting < depth then throw .tooDeep
    match ← peek with
    | .alias name =>
      pass
      match (← get).anchors.lookup name with
      | some number => return number
      | none => throw .malformed
    | _ =>
      let p ← properties
      let sequence := p.collectionTag Tag.seq
      let mapping := p.collectionTag Tag.map
      let t ← peek
      if mayBeIndentless && t = .blockEntry then
        let number ← addWith p sequence (.sequence [])
        blockSequence fuel (depth + 1) true number []
      else
        match t, isBlock with
        | .scalar text isPlain, _ =>
          pass
          addWith p (p.scalarTag text isPlain) (.scalar text)
        | .flowSequenceStart, _ =>
          let number ← addWith p sequence (.sequence [])
          pass
          flowSequence fuel (depth + 1) true number []
        | .flowMappingStart, _ =>
          let number ← addWith p mapping (.mapping [])
          pass
          flowMapping fuel (depth + 1) true number []
        | .blockSequenceStart, true =>
          let number ← addWith p sequence (.sequence [])
          pass
          blockSequence fuel (depth + 1) false number []
        | .blockMappingStart, true =>
          let number ← addWith p mapping (.mapping [])
          pass
          blockMapping fuel (depth + 1) number []
        | _, _ =>
          if p.anchor.isSome || p.tag.isSome then addWith p (p.scalarTag "" true) (.scalar "")
          else throw .malformed

/--
Read the entries of a sequence outside of brackets. The depth is the one of the entries, here and
below.
-/
def blockSequence (fuel depth : Nat) (isIndentless : Bool) (number : Nat) (items : List Nat) :
    ReadM Nat := do
  match fuel with
  | 0 => throw .malformed
  | fuel + 1 =>
    if (← peek) = .blockEntry then
      pass
      let item ←
        if endsEntry isIndentless (← peek) then addEmpty else node fuel depth true false
      blockSequence fuel depth isIndentless number (items ++ [item])
    else
      if !isIndentless then expect .blockEnd
      setContent number (.sequence items)
      return number

def blockMapping (fuel depth : Nat) (number : Nat) (entries : List (Nat × Nat)) : ReadM Nat := do
  match fuel with
  | 0 => throw .malformed
  | fuel + 1 =>
    if (← peek) = .key then
      pass
      let key ← if endsBlockPart (← peek) then addEmpty else node fuel depth true true
      let value ←
        if (← peek) = .value then do
          pass
          if endsBlockPart (← peek) then addEmpty else node fuel depth true true
        else addEmpty
      blockMapping fuel depth number (entries ++ [(key, value)])
    else
      expect .blockEnd
      setContent number (.mapping entries)
      return number

/--
Read a key and its value inside of brackets, after the sign of the key. Either may be missing.
-/
def flowPair (fuel depth : Nat) (close : Token) : ReadM (Nat × Nat) := do
  match fuel with
  | 0 => throw .malformed
  | fuel + 1 =>
    let ends (t : Token) : Bool := t = .flowEntry || t = close
    let t ← peek
    let key ← if t = .value || ends t then addEmpty else node fuel depth false false
    let value ←
      if (← peek) = .value then do
        pass
        if ends (← peek) then addEmpty else node fuel depth false false
      else addEmpty
    return (key, value)

/--
Read the items of a sequence inside of brackets. A pair among them is a mapping of its own.
-/
def flowSequence (fuel depth : Nat) (isFirst : Bool) (number : Nat) (items : List Nat) :
    ReadM Nat := do
  match fuel with
  | 0 => throw .malformed
  | fuel + 1 =>
    if (← peek) != .flowSequenceEnd && !isFirst then expect .flowEntry
    match ← peek with
    | .flowSequenceEnd =>
      pass
      setContent number (.sequence items)
      return number
    | .key =>
      let item ← add ⟨Tag.map, .mapping []⟩
      pass
      let pair ← flowPair fuel (depth + 1) .flowSequenceEnd
      setContent item (.mapping [pair])
      flowSequence fuel depth false number (items ++ [item])
    | _ =>
      let item ← node fuel depth false false
      flowSequence fuel depth false number (items ++ [item])

/--
Read the entries of a mapping inside of brackets. A key without a sign has no value.
-/
def flowMapping (fuel depth : Nat) (isFirst : Bool) (number : Nat)
    (entries : List (Nat × Nat)) : ReadM Nat := do
  match fuel with
  | 0 => throw .malformed
  | fuel + 1 =>
    if (← peek) != .flowMappingEnd && !isFirst then expect .flowEntry
    match ← peek with
    | .flowMappingEnd =>
      pass
      setContent number (.mapping entries)
      return number
    | .key =>
      pass
      let pair ← flowPair fuel depth .flowMappingEnd
      flowMapping fuel depth false number (entries ++ [pair])
    | _ =>
      let key ← node fuel depth false false
      let value ← addEmpty
      flowMapping fuel depth false number (entries ++ [(key, value)])

end

/--
Read the directives in front of a document: at most one version, which must be of the first
generation, and at most one expansion for each handle.
-/
def directives (fuel : Nat) (hasVersion : Bool) (handles : List (String × String)) :
    ReadM (List (String × String)) := do
  match fuel with
  | 0 => throw .malformed
  | fuel + 1 =>
    match ← peek with
    | .directive directive =>
      pass
      match directive with
      | .version major =>
        if hasVersion || major != 1 then throw .malformed
        directives fuel true handles
      | .tag handle expansion =>
        if (handles.lookup handle).isSome then throw .malformed
        directives fuel hasVersion ((handle, expansion) :: handles)
      | .other => directives fuel hasVersion handles
    | _ => return handles

/--
Read the ends of documents up to the end of the text. There must be nothing else. What stands there
is refused only once its directives are read, so that a fault among them comes first.
-/
def ending (fuel : Nat) : ReadM Unit := do
  match fuel with
  | 0 => throw .malformed
  | fuel + 1 =>
    match ← peek with
    | .documentEnd =>
      pass
      ending fuel
    | .streamEnd => return
    | _ =>
      let _ ← directives fuel false []
      throw .malformed

def endsDocument : Token → Bool
  | .directive _ | .documentStart | .documentEnd | .streamEnd => true
  | _ => false

def document (fuel : Nat) : ReadM (Option Nat) := do
  let first ← peek
  if first = .streamEnd then return none
  let isExplicit :=
    match first with
    | .directive _ | .documentStart => true
    | _ => false
  if isExplicit then
    let handles ← directives fuel false []
    modify fun r => { r with handles := handles ++ defaultHandles }
    expect .documentStart
  else
    modify fun r => { r with handles := defaultHandles }
  let root ← if isExplicit && endsDocument (← peek) then addEmpty else node fuel 0 true false
  ending fuel
  return some root

def ofText? (limits : Limits) (text : List Char) : Except Fault (Graph × Option Nat) :=
  let stream := TokenStream.ofText text
  let fuel := 3 * stream.tokens.length + 3
  match (document fuel).run ⟨limits, stream.tokens, stream.fault, #[], [], []⟩ with
  | .error fault => .error fault
  | .ok (root, reading) => .ok (reading.nodes, root)

end Graph

end Yaml

end MigrationLint
