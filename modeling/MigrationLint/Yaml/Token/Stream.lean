import MigrationLint.Yaml.Token.Property
import MigrationLint.Yaml.Token.Scalar

/-!
This module contains the reading of a text as tokens. Outside of brackets a change of indentation
starts and ends mappings and sequences. What may turn out to be a key is remembered until its line
ends: when a colon follows, the token of a key is put in front of it.
-/

namespace MigrationLint

namespace Yaml

/--
A place where a key may have started: the number of its first token, whether a key is the only thing
that can start there, and its place in the text.
-/
structure KeyStart where
  token : Nat
  isRequired : Bool
  index : Nat
  line : Nat
  column : Nat
  deriving Repr

/--
The state of reading: the place in the text, the tokens so far, the count of open brackets, the
indentation and those around it, whether a key may start, and where keys may have started, by the
count of open brackets.
-/
structure Scan where
  cursor : Cursor
  tokens : Array Token := #[]
  level : Nat := 0
  indent : Int := -1
  indents : List Int := []
  mayStartKey : Bool := true
  starts : List (Nat × KeyStart) := []

namespace Scan

def isFlow (s : Scan) : Bool := 0 < s.level

def emit (s : Scan) (t : Token) : Scan :=
  { s with tokens := s.tokens.push t }

def take (s : Scan) (t : Token) (length : Nat) : Scan :=
  { s.emit t with cursor := s.cursor.advance length }

/--
Pass blanks, comments and line breaks. Outside of brackets a key may start after a line break.
-/
def toNextToken (fuel : Nat) (s : Scan) : Scan :=
  match fuel with
  | 0 => s
  | fuel + 1 =>
    let cursor := (s.cursor.skip (· = ' ')).skipComment
    match cursor.break? with
    | none => { s with cursor }
    | some (_, cursor) =>
      toNextToken fuel { s with cursor, mayStartKey := s.mayStartKey || !s.isFlow }

/--
Check whether a key can no longer be the one that started at a place: it must end on the same line,
within 1024 characters.
-/
def isStale (s : Scan) (start : KeyStart) : Bool :=
  start.line != s.cursor.line || 1024 < s.cursor.index - start.index

/--
Forget the places whose keys can no longer end. A required key must not be among them.
-/
def forgetStale (s : Scan) : Except Fault Scan :=
  let (stale, starts) := s.starts.partition fun (_, start) => s.isStale start
  if stale.any fun (_, start) => start.isRequired then .error .malformed
  else .ok { s with starts }

def forgetStart (s : Scan) : Except Fault Scan :=
  match s.starts.lookup s.level with
  | none => .ok s
  | some start =>
    if start.isRequired then .error .malformed
    else .ok { s with starts := s.starts.filter (·.1 != s.level) }

def saveStart (s : Scan) : Except Fault Scan :=
  if s.mayStartKey then
    match s.forgetStart with
    | .error fault => .error fault
    | .ok s =>
      let c := s.cursor
      let isRequired := !s.isFlow && s.indent == c.column
      .ok { s with
        starts := (s.level, ⟨s.tokens.size, isRequired, c.index, c.line, c.column⟩) :: s.starts }
  else .ok s

def unwind (s : Scan) (column : Int) : Scan :=
  if s.isFlow then s else go s.indents s
where
  go (indents : List Int) (s : Scan) : Scan :=
    if column < s.indent then
      match indents with
      | [] => s
      | indent :: indents => go indents { s.emit .blockEnd with indent, indents }
    else s

/--
Go to a greater indentation; the result tells whether it is greater than the present one.
-/
def deepen (s : Scan) (column : Nat) : Bool × Scan :=
  if s.indent < column then
    (true, { s with indent := column, indents := s.indent :: s.indents })
  else (false, s)

def atEnd (s : Scan) : Except Fault Scan := do
  let s ← (s.unwind (-1)).forgetStart
  return { s.emit .streamEnd with mayStartKey := false, starts := [] }

def separator (s : Scan) (t : Token) : Except Fault Scan := do
  let s ← (s.unwind (-1)).forgetStart
  return { s.take t 3 with mayStartKey := false }

def directive (s : Scan) : Except Fault Scan := do
  let s ← (s.unwind (-1)).forgetStart
  let (t, cursor) ← readDirective s.cursor
  return { s.emit t with cursor, mayStartKey := false }

def openFlow (s : Scan) (t : Token) : Except Fault Scan := do
  let s ← s.saveStart
  return { s.take t 1 with level := s.level + 1, mayStartKey := true }

def closeFlow (s : Scan) (t : Token) : Except Fault Scan := do
  if s.level = 0 then throw .malformed
  let s ← s.forgetStart
  return { s.take t 1 with level := s.level - 1, mayStartKey := false }

def flowEntry (s : Scan) : Except Fault Scan := do
  let s ← s.forgetStart
  return { s.take .flowEntry 1 with mayStartKey := true }

def startBlock (s : Scan) (t : Token) : Except Fault Scan :=
  if s.isFlow then .ok s
  else if !s.mayStartKey then .error .malformed
  else
    let (isDeeper, s) := s.deepen s.cursor.column
    .ok (if isDeeper then s.emit t else s)

def blockEntry (s : Scan) : Except Fault Scan := do
  let s ← s.startBlock .blockSequenceStart
  let s ← { s with mayStartKey := true }.forgetStart
  return s.take .blockEntry 1

def key (s : Scan) : Except Fault Scan := do
  let s ← s.startBlock .blockMappingStart
  let s ← { s with mayStartKey := !s.isFlow }.forgetStart
  return s.take .key 1

/--
Read the sign of a value. If a key may have started before it, the key is announced now.
-/
def value (s : Scan) : Except Fault Scan := do
  match s.starts.lookup s.level with
  | some start =>
    let s := { s with starts := s.starts.filter (·.1 != s.level), mayStartKey := false }
    let (isDeeper, s) := if s.isFlow then (false, s) else s.deepen start.column
    let announced := if isDeeper then [Token.blockMappingStart, .key] else [.key]
    let tokens := s.tokens.toList
    let tokens := tokens.take start.token ++ announced ++ tokens.drop start.token
    return { s with tokens := tokens.toArray }.take .value 1
  | none =>
    let s ← s.startBlock .blockMappingStart
    let s ← { s with mayStartKey := !s.isFlow }.forgetStart
    return s.take .value 1

def keyable (s : Scan) (read : Cursor → Except Fault (Token × Cursor)) : Except Fault Scan := do
  let s ← s.saveStart
  let (t, cursor) ← read s.cursor
  return { s.emit t with cursor, mayStartKey := false }

def quoted (s : Scan) (isDouble : Bool) : Except Fault Scan :=
  s.keyable fun c => do
    let (text, after) ← Quote.read isDouble (c.rest.length + 1) c.step #[]
    return (.scalar text false, after)

def block (s : Scan) (isFolded : Bool) : Except Fault Scan := do
  let s ← { s with mayStartKey := true }.forgetStart
  let (text, cursor) ← Block.read isFolded s.indent s.cursor
  return { s.emit (.scalar (String.ofList text) false) with cursor }

def plain (s : Scan) : Except Fault Scan := do
  let s ← s.saveStart
  let (text, mayStartKey, cursor) :=
    Plain.read s.isFlow (s.indent + 1) (s.cursor.rest.length + 1) s.cursor #[] [] false
  return { s.emit (.scalar (String.ofList text) true) with cursor, mayStartKey }

def startsPlain (s : Scan) (c next : Char) : Bool :=
  !(isSpaceOrEnd c || c ∈ "-?:,[]{}#&*!|>'\"%@\u0060".toList) ||
    (!isSpaceOrEnd next && (c = '-' || (!s.isFlow && (c = '?' || c = ':'))))

def token (s : Scan) : Except Fault Scan :=
  let c := s.cursor
  let next := c.peek 1
  let isAlone := isSpaceOrEnd next
  match c.head with
  | '\x00' => s.atEnd
  | '[' => s.openFlow .flowSequenceStart
  | '{' => s.openFlow .flowMappingStart
  | ']' => s.closeFlow .flowSequenceEnd
  | '}' => s.closeFlow .flowMappingEnd
  | ',' => s.flowEntry
  | '*' => s.keyable fun c => do
    let (name, after) ← readName c.step
    return (.alias name, after)
  | '&' => s.keyable fun c => do
    let (name, after) ← readName c.step
    return (.anchor name, after)
  | '!' => s.keyable readTag
  | '\'' => s.quoted false
  | '"' => s.quoted true
  | ch =>
    if ch = '%' ∧ c.column = 0 then s.directive
    else if c.column = 0 ∧ c.atMark ['-', '-', '-'] then s.separator .documentStart
    else if c.column = 0 ∧ c.atMark ['.', '.', '.'] then s.separator .documentEnd
    else if ch = '-' ∧ isAlone then s.blockEntry
    else if ch = '?' ∧ (s.isFlow ∨ isAlone) then s.key
    else if ch = ':' ∧ (s.isFlow ∨ isAlone) then s.value
    else if ch = '|' ∧ !s.isFlow then s.block false
    else if ch = '>' ∧ !s.isFlow then s.block true
    else if s.startsPlain ch next then s.plain
    else .error .malformed

def next (s : Scan) : Except Fault Scan := do
  let s ← (s.toNextToken (s.cursor.rest.length + 1)).forgetStale
  (s.unwind s.cursor.column).token

end Scan

/--
The tokens of a text. A text that cannot be read to its end has the tokens that are certain, and the
fault that stands after them.
-/
structure TokenStream where
  tokens : List Token
  fault : Fault
  deriving Repr

namespace TokenStream

def certain (s : Scan) : List Token :=
  let bound := s.starts.foldl (fun bound (_, start) => min bound start.token) s.tokens.size
  s.tokens.toList.take bound

def go (fuel : Nat) (s : Scan) : TokenStream :=
  match fuel with
  | 0 => ⟨s.tokens.toList, .malformed⟩
  | fuel + 1 =>
    match s.forgetStale with
    | .error fault => ⟨certain s, fault⟩
    | .ok s =>
      match s.next with
      | .error fault => ⟨certain s, fault⟩
      | .ok s =>
        if s.tokens.back? = some .streamEnd then ⟨s.tokens.toList, .malformed⟩ else go fuel s

/--
Read the tokens of a text. A mark of byte order at the start is passed.
-/
def ofText (text : List Char) : TokenStream :=
  if text.all isAllowed then
    let cursor : Cursor := ⟨text, 0, 0, 0⟩
    let cursor := if cursor.head = byteOrderMark then cursor.step else cursor
    go (text.length + 1) { cursor }
  else ⟨[], .malformed⟩

end TokenStream

end Yaml

end MigrationLint
