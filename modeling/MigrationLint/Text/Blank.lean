import MigrationLint.Text.Wide

/-!
This module contains the characters that count as blank at the ends of a text, which are the
characters that Unicode calls white space together with the four separators of ASCII.
-/

namespace MigrationLint

namespace Blank

def ranges : List (Nat × Nat) :=
  [(0x09, 0x0D), (0x1C, 0x20), (0x85, 0x85), (0xA0, 0xA0), (0x1680, 0x1680), (0x2000, 0x200A),
   (0x2028, 0x2029), (0x202F, 0x202F), (0x205F, 0x205F), (0x3000, 0x3000)]

def isBlankCode (code : Nat) : Bool :=
  ranges.any fun (low, high) => low ≤ code && code ≤ high

/--
Check whether a character is blank around a number. The four separators of ASCII are not.
-/
def isBlankAroundNumber (c : Char) : Bool :=
  isBlankCode c.toNat && !(0x1C ≤ c.toNat && c.toNat ≤ 0x1F)

def trimBy {α : Type} (drop : α → Bool) (as : List α) : List α :=
  ((as.dropWhile drop).reverse.dropWhile drop).reverse

def trim (t : WideText) : WideText :=
  ⟨trimBy isBlankCode t.codes⟩

end Blank

end MigrationLint
