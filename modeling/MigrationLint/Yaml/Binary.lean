import MigrationLint.Text.Quoted

/-!
This module contains bytes as documents write them: every digit in base 64 stands for six bits.
Other characters between the digits do not count.
-/

namespace MigrationLint

namespace Yaml

namespace Binary

def digit? (c : Char) : Option Nat :=
  if 'A' ≤ c ∧ c ≤ 'Z' then some (c.toNat - 'A'.toNat)
  else if 'a' ≤ c ∧ c ≤ 'z' then some (c.toNat - 'a'.toNat + 26)
  else if '0' ≤ c ∧ c ≤ '9' then some (c.toNat - '0'.toNat + 52)
  else if c = '+' then some 62
  else if c = '/' then some 63
  else none

/--
Read digits up to the end of the text, or to the signs that fill up the last group of four. Given
are the place in the present group, the count of signs that fill it up, and the bits of the digit
before that are still to be used.
-/
def readFrom (place fill bits : Nat) : List Char → Option (List UInt8)
  | [] => if place = 0 then some [] else none
  | c :: cs =>
    if c = '=' then
      if place < 2 then readFrom place fill bits cs
      else if place + fill + 1 < 4 then readFrom place (fill + 1) bits cs
      else some []
    else
      match digit? c with
      | none => readFrom place fill bits cs
      | some digit =>
        let unit := Nat.pow 4 (3 - place)
        let rest := readFrom ((place + 1) % 4) 0 (digit % unit) cs
        if place = 0 then rest
        else rest.map (UInt8.ofNat (bits * Nat.pow 4 place + digit / unit) :: ·)

/--
Read bytes. All characters must be ones of ASCII.
-/
def read? (cs : List Char) : Option (List UInt8) :=
  if cs.all fun c => c.toNat < 0x80 then readFrom 0 0 0 cs else none

def render (bytes : List UInt8) : String :=
  let cs := bytes.map fun byte => Char.ofNat byte.toNat
  let quote := Quoted.quoteFor cs
  String.ofList ('b' :: quote :: (cs.flatMap (escape quote) ++ [quote]))
where
  escape (quote c : Char) : List Char :=
    if c.toNat < 0x80 then Quoted.escape quote c else '\\' :: 'x' :: Quoted.hex 2 c.toNat

end Binary

end Yaml

end MigrationLint
