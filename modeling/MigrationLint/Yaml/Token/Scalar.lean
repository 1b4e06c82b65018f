import MigrationLint.Text.Wide
import MigrationLint.Yaml.Cursor
import MigrationLint.Yaml.Fault

/-!
This module contains the reading of scalars: plain ones, quoted ones and blocks. A line break inside
a scalar is folded: one break becomes a blank, and of several the first is dropped.
-/

namespace MigrationLint

namespace Yaml

def fold (first : Char) (later : List Char) : List Char :=
  (if first != '\n' then [first] else if later.isEmpty then [' '] else []) ++ later

/-! Plain scalars -/

namespace Plain

def stops (isFlow : Bool) (c next : Char) : Bool :=
  isSpaceOrEnd c ||
    (c = ':' && (isSpaceOrEnd next || (isFlow && next ∈ [',', '[', ']', '{', '}']))) ||
    (isFlow && c ∈ [',', '?', '[', ']', '{', '}'])

/--
Take the characters up to the next space or stop.
-/
def run (isFlow : Bool) : List Char → List Char
  | [] => []
  | c :: cs => if stops isFlow c (cs.headD '\x00') then [] else c :: run isFlow cs

/--
Pass blanks and line breaks; `none` in place of the breaks if a document starts or ends.
-/
def breaks (fuel : Nat) (c : Cursor) (later : List Char) : Option (List Char) × Cursor :=
  match fuel with
  | 0 => (some later, c)
  | fuel + 1 =>
    if c.head = ' ' then breaks fuel c.step later
    else
      match c.break? with
      | none => (some later, c)
      | some (ch, c) =>
        if c.atSeparator then (none, c) else breaks fuel c (later ++ [ch])

/--
The space between two runs of a plain scalar: what it adds to the text, whether it holds a line
break, and the place after it.
-/
structure Gap where
  text : List Char
  hasBreak : Bool
  after : Cursor

def gap (c : Cursor) : Gap :=
  let (blanks, c) := c.span (· = ' ')
  match c.break? with
  | none => ⟨blanks, false, c⟩
  | some (first, c) =>
    if c.atSeparator then ⟨[], true, c⟩
    else
      match breaks c.rest.length c [] with
      | (none, c) => ⟨[], true, c⟩
      | (some later, c) => ⟨fold first later, true, c⟩

/--
Read a plain scalar that is indented by at least the given count of columns. The flag of the result
tells whether the scalar ends at the start of a line, where a key may stand.
-/
def read (isFlow : Bool) (indent : Int) (fuel : Nat) (c : Cursor) (text : Array Char)
    (between : List Char) (atLineStart : Bool) : List Char × Bool × Cursor :=
  match fuel with
  | 0 => (text.toList, atLineStart, c)
  | fuel + 1 =>
    let run := if c.head = '#' then [] else run isFlow c.rest
    if run.isEmpty then (text.toList, atLineStart, c)
    else
      let text := text ++ between ++ run
      let gap := gap (c.advance run.length)
      if gap.text.isEmpty || gap.after.head = '#' ||
          (!isFlow && (gap.after.column : Int) < indent) then
        (text.toList, gap.hasBreak, gap.after)
      else read isFlow indent fuel gap.after text gap.text gap.hasBreak

end Plain

/-! Quoted scalars -/

namespace Quote

/--
The escapes that stand for one character.
-/
def escapes : List (Char × Char) :=
  [('0', '\x00'), ('a', '\x07'), ('b', '\x08'), ('t', '\t'), ('\t', '\t'), ('n', '\n'),
   ('v', '\x0B'), ('f', '\x0C'), ('r', '\r'), ('e', '\x1B'), (' ', ' '), ('"', '"'), ('\\', '\\'),
   ('/', '/'), ('N', '\u0085'), ('_', '\u00A0'), ('L', '\u2028'), ('P', '\u2029')]

def codeLengths : List (Char × Nat) :=
  [('x', 2), ('u', 4), ('U', 8)]

/--
Pass blanks, tabs and line breaks. No document may start or end here.
-/
def breaks (fuel : Nat) (c : Cursor) (later : List Char) : Except Fault (List Char × Cursor) :=
  match fuel with
  | 0 => .ok (later, c)
  | fuel + 1 =>
    if c.atSeparator then .error .malformed
    else
      let c := c.skip isSpace
      match c.break? with
      | some (ch, c) => breaks fuel c (later ++ [ch])
      | none => .ok (later, c)

/--
Check whether a number is a code point. A single half of a pair is one.
-/
def checkCode (code : Nat) : Except Fault Nat :=
  if code ≤ 0x10FFFF then .ok code
  else if code < Nat.pow 2 31 then .error .badValue
  else .error .hugeCode

def codes (cs : List Char) : List Nat :=
  cs.map Char.toNat

def escape (c : Cursor) : Except Fault (List Nat × Cursor) :=
  match escapes.lookup c.head, codeLengths.lookup c.head with
  | some ch, _ => .ok ([ch.toNat], c.step)
  | none, some length =>
    let digits := c.step.rest.take length
    if digits.length = length ∧ digits.all isHexDigit then
      (checkCode (hexValue digits)).map fun code => ([code], c.advance (length + 1))
    else .error .malformed
  | none, none =>
    match c.break? with
    | some (_, c) => (breaks (c.rest.length + 1) c []).map fun (later, c) => (codes later, c)
    | none => .error .malformed

def read (isDouble : Bool) (fuel : Nat) (c : Cursor) (text : Array Nat) :
    Except Fault (WideText × Cursor) :=
  match fuel with
  | 0 => .error .malformed
  | fuel + 1 =>
    let quote := if isDouble then '"' else '\''
    let ch := c.head
    if ch = '\'' ∧ !isDouble ∧ c.peek 1 = '\'' then
      read isDouble fuel (c.advance 2) (text.push ch.toNat)
    else if ch = quote then .ok (⟨text.toList⟩, c.step)
    else if ch = '\\' ∧ isDouble then
      match escape c.step with
      | .error fault => .error fault
      | .ok (run, c) => read isDouble fuel c (text ++ run)
    else if isSpaceOrEnd ch then
      let (blanks, c) := c.span isSpace
      if isEnd c.head then .error .malformed
      else
        match c.break? with
        | none => read isDouble fuel c (text ++ codes blanks)
        | some (first, c) =>
          match breaks (c.rest.length + 1) c [] with
          | .error fault => .error fault
          | .ok (later, c) => read isDouble fuel c (text ++ codes (fold first later))
    else read isDouble fuel c.step (text.push ch.toNat)

end Quote

/-! Blocks -/

namespace Block

/--
What becomes of the line breaks at the end of a block.
-/
inductive Chomping where
  | strip
  | clip
  | keep
  deriving DecidableEq, Repr

def chomping? (c : Char) : Option Chomping :=
  if c = '+' then some .keep else if c = '-' then some .strip else none

def header (c : Cursor) : Except Fault (Chomping × Option Nat × Cursor) :=
  let indent? (c : Cursor) : Except Fault (Option Nat × Cursor) :=
    if c.head = '0' then .error .malformed
    else if c.head.isDigit then .ok (some (c.head.toNat - '0'.toNat), c.step)
    else .ok (none, c)
  let (first?, c) :=
    match chomping? c.head with
    | some chomping => (some chomping, c.step)
    | none => (none, c)
  match indent? c with
  | .error fault => .error fault
  | .ok (indent, c) =>
    let (chomping, c) :=
      match first?, indent, chomping? c.head with
      | some chomping, _, _ => (chomping, c)
      | none, some _, some chomping => (chomping, c.step)
      | none, _, _ => (.clip, c)
    if isBlankOrEnd c.head then .ok (chomping, indent, c) else .error .malformed

/--
Pass the rest of a line, which may hold blanks and a comment only.
-/
def restOfLine (c : Cursor) : Except Fault Cursor :=
  let c := (c.skip (· = ' ')).skipComment
  if isBreakOrEnd c.head then .ok c.skipBreak else .error .malformed

def findIndent (fuel : Nat) (c : Cursor) (lines : List Char) (indent : Nat) :
    List Char × Nat × Cursor :=
  match fuel with
  | 0 => (lines, indent, c)
  | fuel + 1 =>
    if c.head = ' ' then
      let c := c.step
      findIndent fuel c lines (max indent c.column)
    else
      match c.break? with
      | some (ch, c) => findIndent fuel c (lines ++ [ch]) indent
      | none => (lines, indent, c)

def skipIndent (fuel indent : Nat) (c : Cursor) : Cursor :=
  match fuel with
  | 0 => c
  | fuel + 1 => if c.column < indent ∧ c.head = ' ' then skipIndent fuel indent c.step else c

def emptyLines (fuel indent : Nat) (c : Cursor) (lines : List Char) : List Char × Cursor :=
  match fuel with
  | 0 => (lines, c)
  | fuel + 1 =>
    let c := skipIndent indent indent c
    match c.break? with
    | some (ch, c) => emptyLines fuel indent c (lines ++ [ch])
    | none => (lines, c)

/--
The end of a block: its text without the last line breaks, these breaks, and the place after them.
-/
structure Tail where
  text : List Char
  lastBreak : List Char
  emptyLines : List Char
  after : Cursor

def lines (isFolded : Bool) (indent fuel : Nat) (c : Cursor) (text empty : List Char) : Tail :=
  match fuel with
  | 0 => ⟨text, [], empty, c⟩
  | fuel + 1 =>
    if c.column = indent ∧ !isEnd c.head then
      let startsInk := !isSpace c.head
      let (run, c) := c.span (!isBreakOrEnd ·)
      let text := text ++ empty ++ run
      let (lastBreak, c) :=
        match c.break? with
        | some (ch, c) => ([ch], c)
        | none => ([], c)
      let (empty, c) := emptyLines (c.rest.length + 1) indent c []
      if c.column = indent ∧ !isEnd c.head then
        let joint :=
          if isFolded && lastBreak == ['\n'] && startsInk && !isSpace c.head then
            if empty.isEmpty then [' '] else []
          else lastBreak
        lines isFolded indent fuel c (text ++ joint) empty
      else ⟨text, lastBreak, empty, c⟩
    else ⟨text, [], empty, c⟩

def read (isFolded : Bool) (parentIndent : Int) (c : Cursor) : Except Fault (List Char × Cursor) :=
  match header c.step with
  | .error fault => .error fault
  | .ok (chomping, indent?, c) =>
    match restOfLine c with
    | .error fault => .error fault
    | .ok c =>
      let least := (max (parentIndent + 1) 1).toNat
      let fuel := c.rest.length + 1
      let (empty, indent, c) :=
        match indent? with
        | none =>
          let (empty, found, c) := findIndent fuel c [] 0
          (empty, max least found, c)
        | some increment =>
          let indent := least + increment - 1
          let (empty, c) := emptyLines fuel indent c []
          (empty, indent, c)
      let tail := lines isFolded indent fuel c [] empty
      let text := if chomping = .strip then tail.text else tail.text ++ tail.lastBreak
      .ok (if chomping = .keep then text ++ tail.emptyLines else text, tail.after)

end Block

end Yaml

end MigrationLint
