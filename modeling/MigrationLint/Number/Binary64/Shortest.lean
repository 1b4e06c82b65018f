import MigrationLint.Number.Binary64.Basic

/-!
This module contains the shortest decimal text of a floating point number: the fewest digits that
read back as the number, and of those the nearest to it. Numbers from `10 ^ -4` up to `10 ^ 16` are
written with a point and at least one digit after it, all others with an exponent of at least two
digits.
-/

namespace MigrationLint

namespace Binary64

/--
The decimal number `digits * 10 ^ exponent`.
-/
structure Decimal where
  digits : Nat
  exponent : Int
  deriving DecidableEq, Repr

def scaleTen (num den : Nat) (power : Int) : Nat × Nat :=
  if 0 ≤ power then (num * Nat.pow 10 power.toNat, den)
  else (num, den * Nat.pow 10 (-power).toNat)

def decade (num den : Nat) : Int :=
  let reaches (power : Int) : Bool :=
    let (n, d) := scaleTen num den (-power)
    d ≤ n
  let guess := (((num.log2 : Int) - den.log2 - 1) * 30103).fdiv 100000
  if reaches (guess + 1) then
    if reaches (guess + 2) then guess + 2 else guess + 1
  else if reaches guess then guess
  else guess - 1

/--
The numbers of the real line that round to a finite number: all between `low / den` and
`high / den`, the ends included if the mantissa is even; the number itself is `mid / den`.
-/
structure Interval where
  low : Nat
  mid : Nat
  high : Nat
  den : Nat
  closed : Bool

def interval (mantissa : Nat) (exponent : Int) : Interval :=
  let below := if mantissa = Nat.pow 2 52 ∧ minExponent < exponent then 1 else 2
  let (unit, den) := scale 1 1 (exponent - 2)
  ⟨(4 * mantissa - below) * unit, 4 * mantissa * unit, (4 * mantissa + 2) * unit, den,
    mantissa % 2 = 0⟩

def Interval.contains (i : Interval) (num den : Nat) : Bool :=
  let low := i.low * den
  let high := i.high * den
  let value := num * i.den
  if i.closed then low ≤ value && value ≤ high else low < value && value < high

/--
Find the decimal number of an interval on the grid of the multiples of `10 ^ power` that is the
nearest to its middle.
-/
def Interval.onGrid? (i : Interval) (power : Int) : Option Decimal :=
  let (n, d) := scaleTen i.mid i.den (-power)
  let floor := n / d
  let isIn (digits : Nat) : Bool :=
    let (num, den) := scaleTen digits 1 power
    i.contains num den
  let nearest := roundDiv n d
  if isIn nearest then some ⟨nearest, power⟩
  else if isIn floor then some ⟨floor, power⟩
  else if isIn (floor + 1) then some ⟨floor + 1, power⟩
  else none

def shortest (mantissa : Nat) (exponent : Int) : Decimal :=
  let i := interval mantissa exponent
  let top := decade i.mid i.den
  match (List.range 17).findSome? fun (n : Nat) => i.onGrid? (top - n) with
  | some decimal => decimal
  | none =>
    let (num, den) := scaleTen i.mid i.den (17 - top)
    ⟨roundDiv num den, top - 17⟩

def Decimal.trimZeros (d : Decimal) : List Char × Int :=
  let digits := Nat.toDigits 10 d.digits
  let zeros := (digits.reverse.takeWhile (· == '0')).length
  (digits.take (digits.length - zeros), d.exponent + zeros)

/--
Write a decimal number that is not zero.
-/
def Decimal.render (d : Decimal) : List Char :=
  let (digits, exponent) := d.trimZeros
  let point : Int := digits.length + exponent
  if -4 < point ∧ point ≤ 16 then
    if point ≤ 0 then
      '0' :: '.' :: (List.replicate (-point).toNat '0' ++ digits)
    else if digits.length ≤ point.toNat then
      digits ++ List.replicate (point.toNat - digits.length) '0' ++ ['.', '0']
    else
      digits.take point.toNat ++ '.' :: digits.drop point.toNat
  else
    let magnitude := Nat.toDigits 10 (point - 1).natAbs
    let fraction := if digits.length ≤ 1 then [] else '.' :: digits.drop 1
    digits.take 1 ++ fraction ++ 'e' :: (if point - 1 < 0 then '-' else '+') ::
      (List.replicate (2 - magnitude.length) '0' ++ magnitude)

def render : Binary64 → String
  | .nan => "nan"
  | .infinity negative => if negative then "-inf" else "inf"
  | .finite negative m e =>
    let digits := if m = 0 then ['0', '.', '0'] else (shortest m e).render
    String.ofList (if negative then '-' :: digits else digits)

end Binary64

end MigrationLint
