import MigrationLint.Number.Binary64.Basic

/-!
This module contains the text of a duration: the exact value of a floating point number, rounded to
three places with ties to even. A duration that is negative or no number counts as zero.
-/

namespace MigrationLint

namespace Binary64

/--
Write a number with three places; what is not above zero is written as zero.
-/
def renderDuration : Binary64 → String
  | .infinity false => "inf"
  | .finite false m e =>
    let (num, den) := ratio m e
    let thousandths := roundDiv (num * 1000) den
    let fraction := Nat.toDigits 10 (thousandths % 1000)
    toString (thousandths / 1000) ++ "." ++
      String.ofList (List.replicate (3 - fraction.length) '0' ++ fraction)
  | _ => "0.000"

end Binary64

end MigrationLint
