import MigrationLint.Number.Binary64.Basic
import MigrationLint.Number.Integer

/-!
This module contains the reading of floating point literals: blanks, a sign, and either a word for
infinity or NaN or a decimal number with an optional point and exponent. Single underscores may
stand between two digits.
-/

namespace MigrationLint

namespace Binary64

def asciiDigit (c : Char) : Char :=
  match DecimalDigit.value? c with
  | some d => Nat.digitChar d
  | none => c

def dropUnderscores? (afterDigit : Bool) : List Char → Option (List Char)
  | [] => some []
  | '_' :: c :: cs =>
    if afterDigit && c.isDigit then (dropUnderscores? true cs).map (c :: ·) else none
  | ['_'] => none
  | c :: cs => (dropUnderscores? c.isDigit cs).map (c :: ·)

def digitRun (cs : List Char) : Nat × Nat × List Char :=
  let run := cs.takeWhile Char.isDigit
  (run.foldl (fun n c => n * 10 + (c.toNat - '0'.toNat)) 0, run.length, cs.dropWhile Char.isDigit)

def exponent? (cs : List Char) : Option Int :=
  let (negative, cs) := Integer.sign cs
  match digitRun cs with
  | (_, 0, _) => none
  | (value, _, []) => some (if negative then -(value : Int) else value)
  | _ => none

def decimal? (negative : Bool) (cs : List Char) : Option Binary64 :=
  let (whole, wholeLength, cs) := digitRun cs
  let (fraction, fractionLength, cs) :=
    match cs with
    | '.' :: cs => digitRun cs
    | cs => (0, 0, cs)
  if wholeLength = 0 ∧ fractionLength = 0 then none
  else
    let digits := whole * Nat.pow 10 fractionLength + fraction
    let shifted (exponent : Int) := ofDecimal negative digits (exponent - fractionLength)
    match cs with
    | [] => some (shifted 0)
    | c :: cs => if c = 'e' ∨ c = 'E' then (exponent? cs).map shifted else none

def read? (cs : List Char) : Option Binary64 :=
  let cs := (Blank.trimBy Blank.isBlankAroundNumber cs).map asciiDigit
  match dropUnderscores? false cs with
  | none => none
  | some cs =>
    let (negative, cs) := Integer.sign cs
    let word := String.ofList (cs.map Char.toLower)
    if word = "inf" ∨ word = "infinity" then some (.infinity negative)
    else if word = "nan" then some .nan
    else decimal? negative cs

end Binary64

end MigrationLint
