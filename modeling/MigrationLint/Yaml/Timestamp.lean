import MigrationLint.Yaml.Date

/-!
This module contains the reading of dates and moments.
-/

namespace MigrationLint

namespace Yaml

/--
A date or a moment as it is written, before the calendar is asked.
-/
inductive Timestamp where
  | date (value : Date)
  | moment (value : Moment)
  deriving DecidableEq, Repr

namespace Timestamp

def digits? (least most : Nat) (cs : List Char) : Option (Nat × List Char) :=
  let run := (cs.take most).takeWhile Char.isDigit
  if least ≤ run.length then
    some (run.foldl (fun n d => n * 10 + (d.toNat - '0'.toNat)) 0, cs.drop run.length)
  else none

def char? (expected : Char) : List Char → Option (List Char)
  | c :: cs => if c = expected then some cs else none
  | [] => none

def isGap (c : Char) : Bool := c = ' ' || c = '\t'

def gap? : List Char → Option (List Char)
  | 'T' :: cs => some cs
  | 't' :: cs => some cs
  | c :: cs => if isGap c then some (cs.dropWhile isGap) else none
  | [] => none

/--
Read the fraction of a second, in microseconds; further digits are dropped.
-/
def fraction : List Char → Nat × List Char
  | '.' :: cs =>
    let run := cs.takeWhile Char.isDigit
    let shown := run.take 6
    (shown.foldl (fun n d => n * 10 + (d.toNat - '0'.toNat)) 0 * Nat.pow 10 (6 - shown.length),
      cs.drop run.length)
  | cs => (0, cs)

def offset? (cs : List Char) : Option (Option Int) :=
  if cs.isEmpty then some none
  else
    match cs.dropWhile isGap with
    | ['Z'] => some (some 0)
    | c :: cs =>
      if c = '-' ∨ c = '+' then do
        let (hours, cs) ← digits? 1 2 cs
        let (minutes, cs) ←
          match cs with
          | ':' :: cs => digits? 2 2 cs
          | cs => some (0, cs)
        if cs.isEmpty then
          let magnitude : Int := (hours * 60 + minutes : Nat)
          some (some (if c = '-' then -magnitude else magnitude))
        else none
      else none
    | [] => none

/--
Read a date or a moment. The flag asks for two digits of month and day where no time follows.
-/
def read? (isStrict : Bool) (text : List Char) : Option Timestamp := do
  let (year, cs) ← digits? 4 4 text
  let (month, afterMonth) ← digits? 1 2 (← char? '-' cs)
  let (day, rest) ← digits? 1 2 (← char? '-' afterMonth)
  let date : Date := ⟨year, month, day⟩
  if rest.isEmpty then
    if isStrict ∧ text.length ≠ 10 then none else some (.date date)
  else
    let (hour, cs) ← digits? 1 2 (← gap? rest)
    let (minute, cs) ← digits? 2 2 (← char? ':' cs)
    let (second, cs) ← digits? 2 2 (← char? ':' cs)
    let (microsecond, cs) := fraction cs
    some (.moment ⟨date, hour, minute, second, microsecond, ← offset? cs⟩)

end Timestamp

end Yaml

end MigrationLint
