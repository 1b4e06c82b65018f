/-!
This module contains the numbers of the binary floating point format with 53 bits of precision, as
exact values: a finite number is a whole number times a power of two. Every operation computes the
exact result and rounds it once, to the nearest number of the format and to the even one at a tie.
-/

namespace MigrationLint

/--
A number of the format; `finite negative m e` has the magnitude `m * 2 ^ e`.
-/
inductive Binary64 where
  | nan
  | infinity (negative : Bool)
  | finite (negative : Bool) (mantissa : Nat) (exponent : Int)
  deriving DecidableEq, Repr, Inhabited

namespace Binary64

def roundDiv (num den : Nat) : Nat :=
  let quotient := num / den
  let rest := num % den
  if 2 * rest < den then quotient
  else if den < 2 * rest then quotient + 1
  else quotient + quotient % 2

def minExponent : Int := -1074

def maxExponent : Int := 971

def scale (num den : Nat) (power : Int) : Nat × Nat :=
  if 0 ≤ power then (num * Nat.pow 2 power.toNat, den)
  else (num, den * Nat.pow 2 (-power).toNat)

def ofRatio (negative : Bool) (num den : Nat) : Binary64 :=
  if num = 0 then .finite negative 0 minExponent
  else
    let guess := max minExponent ((num.log2 : Int) - den.log2 - 53)
    let exponent :=
      let (n, d) := scale num den (-guess)
      if Nat.pow 2 53 ≤ n / d then guess + 1 else guess
    let (n, d) := scale num den (-exponent)
    let mantissa := roundDiv n d
    let (mantissa, exponent) :=
      if mantissa = Nat.pow 2 53 then (Nat.pow 2 52, exponent + 1) else (mantissa, exponent)
    if maxExponent < exponent then .infinity negative else .finite negative mantissa exponent

def ofDecimal (negative : Bool) (digits : Nat) (exponent : Int) : Binary64 :=
  if digits = 0 then .finite negative 0 minExponent
  else if 400 < exponent then .infinity negative
  else if (digits.log2 : Int) + 1 + 3 * exponent < -1100 ∧ exponent < 0 then
    .finite negative 0 minExponent
  else if 0 ≤ exponent then ofRatio negative (digits * Nat.pow 10 exponent.toNat) 1
  else ofRatio negative digits (Nat.pow 10 (-exponent).toNat)

def ofInt (n : Int) : Binary64 :=
  ofRatio (n < 0) n.natAbs 1

def neg : Binary64 → Binary64
  | .nan => .nan
  | .infinity negative => .infinity !negative
  | .finite negative m e => .finite (!negative) m e

def ratio (mantissa : Nat) (exponent : Int) : Nat × Nat :=
  scale mantissa 1 exponent

def add : Binary64 → Binary64 → Binary64
  | .nan, _ => .nan
  | _, .nan => .nan
  | .infinity a, .infinity b => if a = b then .infinity a else .nan
  | .infinity a, .finite .. => .infinity a
  | .finite .., .infinity b => .infinity b
  | .finite a m e, .finite b n f =>
    let low := min e f
    let signed (negative : Bool) (mantissa : Nat) (exponent : Int) : Int :=
      let magnitude : Int := (mantissa * Nat.pow 2 (exponent - low).toNat : Nat)
      if negative then -magnitude else magnitude
    let sum := signed a m e + signed b n f
    if sum = 0 then .finite (a && b) 0 minExponent
    else
      let (num, den) := ratio sum.natAbs low
      ofRatio (sum < 0) num den

def mul : Binary64 → Binary64 → Binary64
  | .nan, _ => .nan
  | _, .nan => .nan
  | .infinity a, .infinity b => .infinity (a != b)
  | .infinity a, .finite b n _ => if n = 0 then .nan else .infinity (a != b)
  | .finite a m _, .infinity b => if m = 0 then .nan else .infinity (a != b)
  | .finite a m e, .finite b n f =>
    let (num, den) := ratio (m * n) (e + f)
    ofRatio (a != b) num den

def eqInt : Binary64 → Int → Bool
  | .finite negative m e, n =>
    let (num, den) := ratio m e
    let value : Int := if negative then -(num : Int) else num
    value == n * den
  | _, _ => false

/--
Check whether two numbers are equal; the two zeros are, and NaN counts as equal to itself.
-/
def same : Binary64 → Binary64 → Bool
  | .finite a m e, .finite b n f => (m = 0 && n = 0) || (a == b && m == n && e == f)
  | x, y => x == y

end Binary64

end MigrationLint
