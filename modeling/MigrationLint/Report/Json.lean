import MigrationLint.Text.Quoted
import MigrationLint.Text.Wide

/-!
This module contains JSON values and their text: the parts of a value stand on one line, a comma and
a colon are followed by a blank, and only the printable characters of ASCII are written as they are.
A character beyond the first plane is written as a pair, and a single half of a pair as it is.
-/

namespace MigrationLint

namespace Report

/--
A JSON value. The members of an object are in the order in which they are written.
-/
inductive Json where
  | null
  | bool (value : Bool)
  | int (value : Int)
  | str (value : WideText)
  | array (items : List Json)
  | object (members : List (String × Json))
  deriving Repr, Inhabited

namespace Json

def escapeUnit (unit : Nat) : List Char :=
  '\\' :: 'u' :: Quoted.hex 4 unit

def escape (code : Nat) : List Char :=
  let c := Char.ofNat code
  if 0x10000 ≤ code then
    let offset := code - 0x10000
    escapeUnit (0xd800 + offset / 0x400) ++ escapeUnit (0xdc00 + offset % 0x400)
  else if c = '"' ∨ c = '\\' then ['\\', c]
  else if c = '\n' then ['\\', 'n']
  else if c = '\r' then ['\\', 'r']
  else if c = '\t' then ['\\', 't']
  else if c = '\x08' then ['\\', 'b']
  else if c = '\x0c' then ['\\', 'f']
  else if ' ' ≤ c ∧ c ≤ '~' then [c]
  else escapeUnit code

def quote (s : WideText) : String :=
  String.ofList ('"' :: (s.codes.flatMap escape ++ ['"']))

def ofText? : Option WideText → Json
  | none => null
  | some s => str s

def ofString? (s? : Option String) : Json := ofText? (s?.map WideText.ofString)

def ofInt? : Option Int → Json
  | none => null
  | some n => int n

mutual

def render : Json → String
  | null => "null"
  | bool true => "true"
  | bool false => "false"
  | int value => toString value
  | str value => quote value
  | array items => "[" ++ String.intercalate ", " (renderItems items) ++ "]"
  | object members => "\x7b" ++ String.intercalate ", " (renderMembers members) ++ "\x7d"

def renderItems : List Json → List String
  | [] => []
  | item :: items => render item :: renderItems items

def renderMembers : List (String × Json) → List String
  | [] => []
  | (name, value) :: members => (quote name ++ ": " ++ render value) :: renderMembers members

end

end Json

end Report

end MigrationLint
