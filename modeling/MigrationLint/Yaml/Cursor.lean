/-!
This module contains the classes of characters that matter to a document, and cursors: places in a
text with the characters that are still to be read.
-/

namespace MigrationLint

namespace Yaml

def isAllowed (c : Char) : Bool :=
  let n := c.toNat
  c = '\t' || c = '\n' || c = '\r' || (0x20 ≤ n && n ≤ 0x7E) || n = 0x85 ||
    (0xA0 ≤ n && n ≤ 0xFFFD) || 0x10000 ≤ n

def byteOrderMark : Char := '\uFEFF'

def isBreak (c : Char) : Bool :=
  c = '\r' || c = '\n' || c = '\u0085' || c = '\u2028' || c = '\u2029'

def isEnd (c : Char) : Bool := c = '\x00'

def isBreakOrEnd (c : Char) : Bool := isBreak c || isEnd c

def isBlankOrEnd (c : Char) : Bool := c = ' ' || isBreakOrEnd c

def isSpaceOrEnd (c : Char) : Bool := c = '\t' || isBlankOrEnd c

def isSpace (c : Char) : Bool := c = ' ' || c = '\t'

def isWord (c : Char) : Bool := c.isAlphanum || c = '-' || c = '_'

def isHexDigit (c : Char) : Bool :=
  c.isDigit || ('a' ≤ c && c ≤ 'f') || ('A' ≤ c && c ≤ 'F')

def hexValue (cs : List Char) : Nat :=
  cs.foldl (fun n c => n * 16 + digit c) 0
where
  digit (c : Char) : Nat :=
    if c.isDigit then c.toNat - '0'.toNat
    else if 'a' ≤ c then c.toNat - 'a'.toNat + 10
    else c.toNat - 'A'.toNat + 10

/--
A place in a text: what is still to be read, the count of characters before it, and its line and
column, counted from zero.
-/
structure Cursor where
  rest : List Char
  index : Nat := 0
  line : Nat := 0
  column : Nat := 0
  deriving Repr

namespace Cursor

/--
Look at the character at a distance. Beyond the end there are null characters.
-/
def peek (c : Cursor) (distance : Nat) : Char :=
  c.rest.getD distance '\x00'

def head (c : Cursor) : Char := c.peek 0

def step (c : Cursor) : Cursor :=
  match c.rest with
  | [] => c
  | ch :: rest =>
    if isBreak ch && !(ch = '\r' && rest.head? = some '\n') then
      ⟨rest, c.index + 1, c.line + 1, 0⟩
    else if ch = byteOrderMark then ⟨rest, c.index + 1, c.line, c.column⟩
    else ⟨rest, c.index + 1, c.line, c.column + 1⟩

def advance (c : Cursor) : Nat → Cursor
  | 0 => c
  | n + 1 => c.step.advance n

def span (c : Cursor) (p : Char → Bool) : List Char × Cursor :=
  let run := c.rest.takeWhile p
  (run, c.advance run.length)

def skip (c : Cursor) (p : Char → Bool) : Cursor := (c.span p).2

/--
Pass a line break, if one stands next. A break counts as a line feed, unless it is a separator of
lines or of paragraphs.
-/
def break? (c : Cursor) : Option (Char × Cursor) :=
  if c.head = '\r' ∧ c.peek 1 = '\n' then some ('\n', c.advance 2)
  else if c.head = '\u2028' ∨ c.head = '\u2029' then some (c.head, c.step)
  else if isBreak c.head then some ('\n', c.step)
  else none

def skipBreak (c : Cursor) : Cursor :=
  match c.break? with
  | some (_, c) => c
  | none => c

def atMark (c : Cursor) (mark : List Char) : Bool :=
  mark.isPrefixOf c.rest && isSpaceOrEnd (c.peek 3)

def atSeparator (c : Cursor) : Bool :=
  c.atMark ['-', '-', '-'] || c.atMark ['.', '.', '.']

def skipComment (c : Cursor) : Cursor :=
  if c.head = '#' then c.skip (!isBreakOrEnd ·) else c

end Cursor

end Yaml

end MigrationLint
