import MigrationLint.Number.Binary64.Read
import MigrationLint.Yaml.Fault
import MigrationLint.Yaml.Tag
import MigrationLint.Yaml.Value

/-!
This module contains the reading of scalars with a known tag.
-/

namespace MigrationLint

namespace Yaml

namespace Scalar

def readInteger (base : Nat) (cs : List Char) : Except Fault Int :=
  match Integer.read base cs with
  | .ok n => .ok n
  | .error _ => .error .badValue

def readFloat (cs : List Char) : Except Fault Binary64 :=
  match Binary64.read? cs with
  | some x => .ok x
  | none => .error .badValue

/--
Read a magnitude: a mark in front tells the base, and parts with colons between them count in
sixties.
-/
def readMagnitude (cs : List Char) : Except Fault Int :=
  match cs with
  | [] => .error .noDigits
  | ['0'] => .ok 0
  | '0' :: 'b' :: cs => readInteger 2 cs
  | '0' :: 'x' :: cs => readInteger 16 cs
  | '0' :: _ => readInteger 8 cs
  | cs =>
    if cs.contains ':' then do
      let parts ← (Tag.colonParts cs).mapM (readInteger 10)
      return parts.foldl (fun n part => n * 60 + part) 0
    else readInteger 10 cs

/--
Read a whole number. Underscores do not count.
-/
def readInt (text : List Char) : Except Fault Int :=
  match text.filter (· != '_') with
  | [] => .error .noDigits
  | '-' :: cs => (readMagnitude cs).map (-·)
  | '+' :: cs => readMagnitude cs
  | cs => readMagnitude cs

/--
Add up the parts of a floating point number that counts in sixties, from the last part on. Every
part needs a unit that is a floating point number.
-/
def addSixties (parts : List Binary64) : Except Fault Binary64 :=
  go 1 (.finite false 0 Binary64.minExponent) parts.reverse
where
  go (unit : Int) (sum : Binary64) : List Binary64 → Except Fault Binary64
    | [] => .ok sum
    | part :: parts =>
      match Binary64.ofInt unit with
      | .infinity _ => .error .hugeUnit
      | u => go (unit * 60) (sum.add (part.mul u)) parts

def plainNumber (text : List Char) : List Char :=
  (text.filter (· != '_')).map Char.toLower

/--
Read a floating point number without a sign.
-/
def readNumberMagnitude (cs : List Char) : Except Fault Binary64 :=
  if cs = ['.', 'i', 'n', 'f'] then .ok (.infinity false)
  else if cs = ['.', 'n', 'a', 'n'] then .ok .nan
  else if cs.contains ':' then do
    addSixties (← (Tag.colonParts cs).mapM readFloat)
  else readFloat cs

/--
Read a floating point number. Underscores do not count.
-/
def readNumber (text : List Char) : Except Fault Binary64 :=
  match plainNumber text with
  | [] => .error .noDigits
  | '-' :: cs => (readNumberMagnitude cs).map Binary64.neg
  | '+' :: cs => readNumberMagnitude cs
  | cs => readNumberMagnitude cs

/--
Read a floating point number that stands at a place. What is not a number is a constant if it is
written with a point, and comes from its place otherwise.
-/
def readNumberAt (place : Nat) (text : List Char) : Except Fault Scalar := do
  match ← readNumber text with
  | .nan =>
    let isConstant := Tag.dropSign (plainNumber text) = ['.', 'n', 'a', 'n']
    return .notNumber (if isConstant then none else some place)
  | x => return .float x

def readTimestamp (text : List Char) : Except Fault Scalar :=
  let text := if text.getLast? = some '\n' then text.dropLast else text
  match Timestamp.read? false text with
  | some (.date d) => if d.isValid then .ok (.date d) else .error .badValue
  | some (.moment m) => if m.isValid then .ok (.moment m) else .error .badValue
  | none => .error .noDate

def readBytes (text : List Char) : Except Fault Scalar :=
  match Binary.read? text with
  | some value => .ok (.bytes value)
  | none => .error .malformed

def ofText (place : Nat) (tag : String) (text : WideText) : Except Fault Scalar :=
  let cs := text.chars
  if tag = Tag.null then .ok .null
  else if tag = Tag.bool then
    match Tag.truthWords.lookup (String.ofList (cs.map Char.toLower)) with
    | some value => .ok (.bool value)
    | none => .error .unknownWord
  else if tag = Tag.int then (readInt cs).map .int
  else if tag = Tag.float then readNumberAt place cs
  else if tag = Tag.binary then readBytes cs
  else if tag = Tag.timestamp then readTimestamp cs
  else if tag = Tag.str then .ok (.str text)
  else .error .malformed

end Scalar

end Yaml

end MigrationLint
