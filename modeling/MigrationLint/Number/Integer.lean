import MigrationLint.Text.Blank
import MigrationLint.Text.DecimalDigit
import MigrationLint.Text.Quoted

/-!
This module contains the reading of integer literals: blanks, a sign, a mark of the base, and digits
of any script with single underscores between them. Neither reading nor writing goes beyond a limit
of decimal digits.
-/

namespace MigrationLint

namespace Integer

/--
Why a text is not an integer literal.
-/
inductive Fault where
  | malformed
  | tooManyDigits (count : Nat)
  deriving DecidableEq, Repr

/--
The greatest count of digits of a literal whose base is not a power of two.
-/
def digitLimit : Nat := 4300

def render? (n : Int) : Option String :=
  if n.natAbs < Nat.pow 10 digitLimit then some (toString n) else none

/--
Write a fault of a text as messages show it; a long text is cut off.
-/
def Fault.message (text : WideText) : Fault → String
  | malformed =>
    "invalid literal for int() with base 10: " ++ String.ofList ((quoted text).toList.take 200)
  | tooManyDigits count =>
    "Exceeds the limit (" ++ toString digitLimit ++
      " digits) for integer string conversion: value has " ++ toString count ++
      " digits; use sys.set_int_max_str_digits() to increase the limit"

/--
Look up the value of a digit in the given base; beyond nine the letters of ASCII count on.
-/
def digit? (base : Nat) (c : Char) : Option Nat :=
  let value? :=
    if 'a' ≤ c ∧ c ≤ 'z' then some (c.toNat - 'a'.toNat + 10)
    else if 'A' ≤ c ∧ c ≤ 'Z' then some (c.toNat - 'A'.toNat + 10)
    else DecimalDigit.value? c
  value?.filter (· < base)

/--
Read digits, onto a value and a count, as far as they go. An underscore needs a digit after it.
-/
def digits (base value count : Nat) : List Char → Option (Nat × Nat × List Char)
  | [] => some (value, count, [])
  | '_' :: cs =>
    match cs with
    | [] => none
    | c :: cs =>
      match digit? base c with
      | some d => digits base (value * base + d) (count + 1) cs
      | none => none
  | c :: cs =>
    match digit? base c with
    | some d => digits base (value * base + d) (count + 1) cs
    | none => some (value, count, c :: cs)

/--
Split a sign off the front; `true` stands for minus.
-/
def sign : List Char → Bool × List Char
  | '-' :: cs => (true, cs)
  | '+' :: cs => (false, cs)
  | cs => (false, cs)

def dropMark (base : Nat) : List Char → List Char
  | '0' :: c :: cs =>
    if (base = 16 ∧ (c = 'x' ∨ c = 'X')) ∨ (base = 8 ∧ (c = 'o' ∨ c = 'O')) ∨
        (base = 2 ∧ (c = 'b' ∨ c = 'B')) then
      match cs with
      | '_' :: cs => cs
      | cs => cs
    else
      '0' :: c :: cs
  | cs => cs

def read (base : Nat) (cs : List Char) : Except Fault Int :=
  let (negative, cs) := sign (cs.dropWhile Blank.isBlankAroundNumber)
  match dropMark base cs with
  | [] => .error .malformed
  | c :: cs =>
    match digit? base c with
    | none => .error .malformed
    | some d =>
      match digits base d 1 cs with
      | none => .error .malformed
      | some (value, count, rest) =>
        if digitLimit < count ∧ base ∉ [2, 8, 16] then .error (.tooManyDigits count)
        else if rest.all Blank.isBlankAroundNumber then
          .ok (if negative then -(value : Int) else value)
        else .error .malformed

end Integer

end MigrationLint
