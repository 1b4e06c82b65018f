/-!
This module contains the decoding of UTF-8. A sequence of bytes is read as characters and faults,
where a fault stands for a maximal part that starts like a character and is none. Text that must be
correct is refused at the first fault; text that only has to be shown has U+FFFD in place of each.
-/

namespace MigrationLint

namespace Utf8

/--
What the first byte of a character promises: the bits that it carries, the number of bytes that
follow, and the bounds of the first of these.
-/
structure Lead where
  payload : Nat
  following : Nat
  low : UInt8
  high : UInt8
  deriving Repr

def lead? (b : UInt8) : Option Lead :=
  if b < 0x80 then some ⟨b.toNat, 0, 0x80, 0xBF⟩
  else if b < 0xC2 then none
  else if b < 0xE0 then some ⟨b.toNat % 32, 1, 0x80, 0xBF⟩
  else if b = 0xE0 then some ⟨0, 2, 0xA0, 0xBF⟩
  else if b = 0xED then some ⟨13, 2, 0x80, 0x9F⟩
  else if b < 0xF0 then some ⟨b.toNat % 16, 2, 0x80, 0xBF⟩
  else if b = 0xF0 then some ⟨0, 3, 0x90, 0xBF⟩
  else if b < 0xF4 then some ⟨b.toNat % 8, 3, 0x80, 0xBF⟩
  else if b = 0xF4 then some ⟨4, 3, 0x80, 0x8F⟩
  else none

/--
Read the bytes that follow a first byte. The rest is what stands after the last byte that fits,
also if there is a byte that does not fit.
-/
def following (value : Nat) : Nat → UInt8 → UInt8 → List UInt8 → Option Nat × List UInt8
  | 0, _, _, bytes => (some value, bytes)
  | _ + 1, _, _, [] => (none, [])
  | n + 1, low, high, b :: bytes =>
    if low ≤ b ∧ b ≤ high then
      following (value * 64 + b.toNat % 64) n 0x80 0xBF bytes
    else
      (none, b :: bytes)

theorem following_length_le (value n : Nat) (low high : UInt8) (bytes : List UInt8) :
    (following value n low high bytes).2.length ≤ bytes.length := by
  fun_induction following value n low high bytes with
  | case1 => simp
  | case2 => simp
  | case3 _ _ _ _ _ _ _ ih => simp only [List.length_cons]; omega
  | case4 => simp

def next (b : UInt8) (bytes : List UInt8) : Option Char × List UInt8 :=
  match lead? b with
  | none => (none, bytes)
  | some lead =>
    let (value, rest) := following lead.payload lead.following lead.low lead.high bytes
    (value.map Char.ofNat, rest)

theorem next_length_le (b : UInt8) (bytes : List UInt8) :
    (next b bytes).2.length ≤ bytes.length := by
  unfold next
  split
  . simp
  . apply following_length_le

/--
Read all characters and faults; a fault is `none`.
-/
def read (bytes : List UInt8) : List (Option Char) :=
  go bytes #[]
where
  go (bytes : List UInt8) (acc : Array (Option Char)) : List (Option Char) :=
    match bytes with
    | [] => acc.toList
    | b :: bytes =>
      have := next_length_le b bytes
      go (next b bytes).2 (acc.push (next b bytes).1)
  termination_by bytes.length
  decreasing_by simp only [List.length_cons]; omega

def decode? (bytes : ByteArray) : Option String :=
  ((read bytes.toList).mapM id).map String.ofList

def decodeLossy (bytes : ByteArray) : String :=
  match String.fromUTF8? bytes with
  | some text => text
  | none => String.ofList <| (read bytes.toList).map (·.getD '\uFFFD')

end Utf8

end MigrationLint
