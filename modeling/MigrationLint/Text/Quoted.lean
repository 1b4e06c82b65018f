import MigrationLint.Text.Unprintable
import MigrationLint.Text.Wide

/-!
This module contains the quoted form of a text, as it stands in messages: between quotes, with
every character that would not be seen written as an escape, and every single half of a pair.
-/

namespace MigrationLint

namespace Quoted

def hex (digits n : Nat) : List Char :=
  go digits n []
where
  go : Nat → Nat → List Char → List Char
  | 0, _, acc => acc
  | digits + 1, n, acc => go digits (n / 16) (Nat.digitChar (n % 16) :: acc)

/--
Choose the quote: single, unless the text holds single quotes and no double ones.
-/
def quoteFor (cs : List Char) : Char :=
  if cs.contains '\'' && !cs.contains '"' then '"' else '\''

def escape (quote c : Char) : List Char :=
  if c = quote ∨ c = '\\' then ['\\', c]
  else if c = '\n' then ['\\', 'n']
  else if c = '\r' then ['\\', 'r']
  else if c = '\t' then ['\\', 't']
  else if !Unprintable.isUnprintable c then [c]
  else if c.toNat < 0x100 then '\\' :: 'x' :: hex 2 c.toNat
  else if c.toNat < 0x10000 then '\\' :: 'u' :: hex 4 c.toNat
  else '\\' :: 'U' :: hex 8 c.toNat

def escapeCode (quote : Char) (code : Nat) : List Char :=
  if code.isValidChar then escape quote (Char.ofNat code) else '\\' :: 'u' :: hex 4 code

def encode (t : WideText) : List Char :=
  let quote := quoteFor t.chars
  quote :: (t.codes.flatMap (escapeCode quote) ++ [quote])

end Quoted

def quoted (t : WideText) : String :=
  String.ofList (Quoted.encode t)

end MigrationLint
