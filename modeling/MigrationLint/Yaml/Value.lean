import MigrationLint.Number.Binary64.Shortest
import MigrationLint.Number.Integer
import MigrationLint.Text.Wide
import MigrationLint.Yaml.Binary
import MigrationLint.Yaml.Date

/-!
This module contains the values that a document stands for: scalars, lists, pairs, sets, and
mappings from scalars to values in the order of insertion. Two keys of a mapping are one if they are
equal as numbers; the truth values count as one and zero. What is not a number is equal to nothing,
so it is the same key only if it is the same constant or comes from the same place.
-/

namespace MigrationLint

namespace Yaml

/--
A value without parts. What is not a number may come from a place of its own.
-/
inductive Scalar where
  | null
  | bool (value : Bool)
  | int (value : Int)
  | float (value : Binary64)
  | notNumber (place : Option Nat)
  | str (value : WideText)
  | bytes (value : List UInt8)
  | date (value : Date)
  | moment (value : Moment)
  deriving DecidableEq, Repr

namespace Scalar

/--
Write a scalar as the name that it is as a key. A whole number with too many digits is no name.
-/
def render? : Scalar → Option WideText
  | null => some "None"
  | bool true => some "True"
  | bool false => some "False"
  | int value => (Integer.render? value).map WideText.ofString
  | float value => some value.render
  | notNumber _ => some Binary64.nan.render
  | str value => some value
  | bytes value => some (Binary.render value)
  | date value => some value.render
  | moment value => some value.render

def integer? : Scalar → Option Int
  | bool value => some (if value then 1 else 0)
  | int value => some value
  | _ => none

def same (a b : Scalar) : Bool :=
  match a, b with
  | null, null => true
  | notNumber a, notNumber b => a == b
  | str a, str b => a == b
  | bytes a, bytes b => a == b
  | date a, date b => a == b
  | moment a, moment b => a.same b
  | float a, float b => a.same b
  | float a, b => b.integer?.any a.eqInt
  | a, float b => a.integer?.any b.eqInt
  | a, b => a.integer?.isSome && a.integer? == b.integer?

end Scalar

/--
A value; `enclosing` stands for a value that encloses the place where it stands.
-/
inductive Value where
  | scalar (value : Scalar)
  | list (items : List Value)
  | pairs (entries : List (Value × Value))
  | mapping (entries : List (Scalar × Value))
  | set (items : List Scalar)
  | enclosing
  deriving Repr, Inhabited

end Yaml

abbrev Options := List (Yaml.Scalar × Yaml.Value)

end MigrationLint
