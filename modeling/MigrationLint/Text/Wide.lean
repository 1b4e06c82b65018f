/-!
This module contains wide texts, which are sequences of code points. A string holds characters only;
a wide text may also hold single halves of the pairs that stand for characters beyond the first
plane, as escapes can write them. Every string is a wide text. A system that gives bytes that are no
text gives a single half for each of them, and takes it back as that byte.
-/

namespace MigrationLint

/--
A text of code points, single halves of pairs included.
-/
@[ext]
structure WideText where
  codes : List Nat
  deriving DecidableEq, Repr, Inhabited

namespace WideText

def ofString (s : String) : WideText :=
  ⟨s.toList.map Char.toNat⟩

instance : Coe String WideText where
  coe := ofString

instance : Append WideText where
  append s t := ⟨s.codes ++ t.codes⟩

@[simp]
theorem codes_append (s t : WideText) : (s ++ t).codes = s.codes ++ t.codes := rfl

@[simp]
theorem codes_ofString (s : String) : (ofString s).codes = s.toList.map Char.toNat := rfl

instance : LT WideText where
  lt s t := s.codes < t.codes

instance (s t : WideText) : Decidable (s < t) :=
  inferInstanceAs (Decidable (s.codes < t.codes))

def toString? (t : WideText) : Option String :=
  if t.codes.all (Nat.isValidChar ·) then some (String.ofList (t.codes.map Char.ofNat)) else none

theorem toString?_ofString (s : String) : (ofString s).toString? = some s := by
  have hvalid (c : Char) : c.toNat.isValidChar := c.valid
  simp [toString?, ofString, hvalid, Function.comp_def]

theorem ofString_inj {s t : String} : ofString s = ofString t ↔ s = t := by
  constructor
  . intro h
    simpa [toString?_ofString] using congrArg toString? h
  . rintro rfl
    rfl

/--
Get the characters of a wide text. The character for what cannot be shown stands in for single
halves of pairs.
-/
def chars (t : WideText) : List Char :=
  t.codes.map fun code => if code.isValidChar then Char.ofNat code else '\uFFFD'

@[simp]
theorem chars_append (s t : WideText) : (s ++ t).chars = s.chars ++ t.chars := by
  simp [chars]

@[simp]
theorem chars_ofString (s : String) : (ofString s).chars = s.toList := by
  have hvalid (c : Char) : c.toNat.isValidChar := c.valid
  simp [chars, hvalid, Function.comp_def]

def join (separator : WideText) (texts : List WideText) : WideText :=
  ⟨(texts.map codes).intersperse separator.codes |>.flatten⟩

/--
Split a text at every occurrence of a character; there is one part more than there are occurrences.
-/
def splitAt (separator : Char) (t : WideText) : List WideText :=
  (t.codes.splitOn separator.toNat).map .mk

def sort (texts : List WideText) : List WideText :=
  texts.mergeSort fun s t => !decide (t < s)

/--
Check whether a code is a single half that stands for a byte which is no text.
-/
def isByte (code : Nat) : Bool :=
  0xDC80 ≤ code && code ≤ 0xDCFF

/--
Check whether a text stands for bytes. A single half that stands for no byte has none.
-/
def isEncodable (t : WideText) : Bool :=
  t.codes.all fun code => decide code.isValidChar || isByte code

def encodeCode (code : Nat) : List UInt8 :=
  if isByte code then [.ofNat (code - 0xDC00)]
  else if code < 0x80 then [.ofNat code]
  else if code < 0x800 then [.ofNat (0xC0 + code / 64), .ofNat (0x80 + code % 64)]
  else if code < 0x10000 then
    [.ofNat (0xE0 + code / 4096), .ofNat (0x80 + code / 64 % 64), .ofNat (0x80 + code % 64)]
  else
    [.ofNat (0xF0 + code / 262144), .ofNat (0x80 + code / 4096 % 64),
      .ofNat (0x80 + code / 64 % 64), .ofNat (0x80 + code % 64)]

/--
Get the bytes that a text stands for.
-/
def encoded (t : WideText) : List UInt8 :=
  t.codes.flatMap encodeCode

/--
Write a wide text as a string. A single half of a pair is written as an escape.
-/
def shown (t : WideText) : String :=
  String.ofList (t.codes.flatMap showCode)
where
  showCode (code : Nat) : List Char :=
    if code.isValidChar then [Char.ofNat code]
    else '\\' :: 'u' :: Nat.toDigits 16 code

end WideText

end MigrationLint
