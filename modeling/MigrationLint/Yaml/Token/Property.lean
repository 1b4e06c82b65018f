import MigrationLint.Number.Integer
import MigrationLint.Text.Utf8
import MigrationLint.Yaml.Cursor
import MigrationLint.Yaml.Fault
import MigrationLint.Yaml.Token

/-!
This module contains the reading of what stands beside content: anchors, aliases, tags and
directives.
-/

namespace MigrationLint

namespace Yaml

def readName (c : Cursor) : Except Fault (String × Cursor) :=
  let (name, c) := c.span isWord
  if name.isEmpty then .error .malformed
  else if isSpaceOrEnd c.head || c.head ∈ ['?', ':', ',', ']', '}', '%', '@', '\u0060'] then
    .ok (String.ofList name, c)
  else .error .malformed

def isTagCharacter (c : Char) : Bool :=
  c.isAlphanum || c ∈ "-;/?:@&=+$,_.!~*'()[]%".toList

def readBytes (fuel : Nat) (c : Cursor) (bytes : ByteArray) : Except Fault (ByteArray × Cursor) :=
  match fuel with
  | 0 => .ok (bytes, c)
  | fuel + 1 =>
    if c.head = '%' then
      if isHexDigit (c.peek 1) && isHexDigit (c.peek 2) then
        let byte := UInt8.ofNat (hexValue [c.peek 1, c.peek 2])
        readBytes fuel (c.advance 3) (bytes.push byte)
      else .error .malformed
    else .ok (bytes, c)

def readSuffix (fuel : Nat) (c : Cursor) (suffix : String) : Except Fault (String × Cursor) :=
  match fuel with
  | 0 => .ok (suffix, c)
  | fuel + 1 =>
    if c.head = '%' then
      match readBytes (c.rest.length + 1) c ByteArray.empty with
      | .error fault => .error fault
      | .ok (bytes, c) =>
        match Utf8.decode? bytes with
        | some text => readSuffix fuel c (suffix ++ text)
        | none => .error .malformed
    else if isTagCharacter c.head then readSuffix fuel c.step (suffix.push c.head)
    else .ok (suffix, c)

/--
Read the suffix of a tag, which must not be without characters.
-/
def readSuffix1 (c : Cursor) : Except Fault (String × Cursor) :=
  if isTagCharacter c.head then readSuffix (c.rest.length + 1) c "" else .error .malformed

def readHandle (c : Cursor) : Except Fault (String × Cursor) :=
  if c.head != '!' then .error .malformed
  else if c.peek 1 = ' ' then .ok ("!", c.step)
  else
    let (name, after) := c.step.span isWord
    if after.head = '!' then .ok (String.ofList ('!' :: name ++ ['!']), after.step)
    else .error .malformed

def hasHandle (c : Cursor) : Bool :=
  (c.rest.takeWhile (!isBlankOrEnd ·)).contains '!'

def readTag (c : Cursor) : Except Fault (Token × Cursor) := do
  let (handle, suffix, c) ←
    if c.peek 1 = '<' then do
      let (suffix, c) ← readSuffix1 (c.advance 2)
      if c.head = '>' then pure (none, suffix, c.step) else throw .malformed
    else if isSpaceOrEnd (c.peek 1) then pure (none, "!", c.step)
    else do
      let (handle, c) ← if hasHandle c.step then readHandle c else pure ("!", c.step)
      let (suffix, c) ← readSuffix1 c
      pure (some handle, suffix, c)
  if isBlankOrEnd c.head then return (.tag handle suffix, c) else throw .malformed

/--
Read a number of a version. A literal with too many digits has no value.
-/
def readNumber (c : Cursor) : Except Fault (Nat × Cursor) :=
  let (digits, c) := c.span Char.isDigit
  if digits.isEmpty then .error .malformed
  else if Integer.digitLimit < digits.length then .error .badValue
  else .ok (digits.foldl (fun n d => n * 10 + (d.toNat - '0'.toNat)) 0, c)

def readDirective (c : Cursor) : Except Fault (Token × Cursor) := do
  let (name, c) := c.step.span isWord
  if name.isEmpty || !isBlankOrEnd c.head then throw .malformed
  let (directive, c) ←
    if name = ['Y', 'A', 'M', 'L'] then do
      let (major, c) ← readNumber (c.skip (· = ' '))
      if c.head != '.' then throw .malformed
      let (_, c) ← readNumber c.step
      if isBlankOrEnd c.head then pure (Directive.version major, c) else throw .malformed
    else if name = ['T', 'A', 'G'] then do
      let (handle, c) ← readHandle (c.skip (· = ' '))
      if c.head != ' ' then throw .malformed
      let (expansion, c) ← readSuffix1 (c.skip (· = ' '))
      if isBlankOrEnd c.head then pure (.tag handle expansion, c) else throw .malformed
    else pure (.other, c.skip (!isBreakOrEnd ·))
  let c := (c.skip (· = ' ')).skipComment
  if isBreakOrEnd c.head then return (.directive directive, c.skipBreak) else throw .malformed

end Yaml

end MigrationLint
