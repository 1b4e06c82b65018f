import MigrationLint.Proofs.List
import MigrationLint.Report.Json

/-!
This module contains the texts of JSON values, said by relations: the escapes of a code, a text
between quotes, and a value with its parts. What is spelled consists of characters of ASCII only.
-/

namespace MigrationLint

namespace Report

namespace Json

/--
Get the member of an object that goes by a name.
-/
def member? (name : String) : Json → Option Json
  | object members => members.lookup name
  | _ => none

theorem ofText?_eq (s? : Option WideText) : ofText? s? = s?.elim null str := by
  cases s? <;> rfl

theorem ofString?_eq (s? : Option String) : ofString? s? = s?.elim null fun s => str s := by
  cases s? <;> rfl

theorem ofInt?_eq (n? : Option Int) : ofInt? n? = n?.elim null int := by
  cases n? <;> rfl

/--
The characters that have an escape of their own, with the letters that these go by.
-/
def shortEscapes : List (Char × Char) :=
  [('"', '"'), ('\\', '\\'), ('\n', 'n'), ('\r', 'r'), ('\t', 't'), ('\x08', 'b'), ('\x0c', 'f')]

/--
Get the digits of a number of sixteen bits.
-/
def unitDigits (unit : Nat) : List Char :=
  [Nat.digitChar (unit / 4096 % 16), Nat.digitChar (unit / 256 % 16),
    Nat.digitChar (unit / 16 % 16), Nat.digitChar (unit % 16)]

def IsPlain (c : Char) : Prop :=
  ' ' ≤ c ∧ c ≤ '~' ∧ c ≠ '"' ∧ c ≠ '\\'

/--
A code is spelled as a plain character, as a short escape, or by one or two numbers.
-/
inductive SpellsCode : Nat → List Char → Prop where
  | plain {c : Char} (h : IsPlain c) : SpellsCode c.toNat [c]
  | short {c letter : Char} (h : (c, letter) ∈ shortEscapes) : SpellsCode c.toNat ['\\', letter]
  | unit {code : Nat} (hcode : code < 0x10000) (hplain : ∀ c, IsPlain c → code ≠ c.toNat)
      (hshort : ∀ entry ∈ shortEscapes, code ≠ entry.1.toNat) :
      SpellsCode code ('\\' :: 'u' :: unitDigits code)
  | pair {code : Nat} (hcode : 0x10000 ≤ code) :
      SpellsCode code
        ('\\' :: 'u' :: unitDigits (0xd800 + (code - 0x10000) / 0x400) ++
          '\\' :: 'u' :: unitDigits (0xdc00 + (code - 0x10000) % 0x400))

theorem escapeUnit_eq (unit : Nat) : escapeUnit unit = '\\' :: 'u' :: unitDigits unit := by
  simp [escapeUnit, Quoted.hex, Quoted.hex.go, unitDigits, Nat.div_div_eq_div_mul]

theorem toNat_ofNat_of_ne {code : Nat} (h : Char.ofNat code ≠ '\x00') :
    (Char.ofNat code).toNat = code := by
  by_cases hvalid : code.isValidChar
  . have hchar : Char.ofNat code = Char.ofNatAux code hvalid := dif_pos hvalid
    rw [hchar]
    rfl
  . exact absurd (dif_neg hvalid) h

theorem spellsCode_escape (code : Nat) : SpellsCode code (escape code) := by
  have hshort {letter : Char} (h : (Char.ofNat code, letter) ∈ shortEscapes) :
      SpellsCode code ['\\', letter] := by
    have hcode : (Char.ofNat code).toNat = code := by
      apply toNat_ofNat_of_ne
      intro hzero
      rw [hzero] at h
      simp [shortEscapes] at h
    have hspells := SpellsCode.short h
    rwa [hcode] at hspells
  simp only [escape, escapeUnit_eq]
  split
  . next hcode => exact .pair hcode
  . next hcode =>
    split
    . next hc => rcases hc with hc | hc <;> exact hshort (by simp [hc, shortEscapes])
    . next hquote =>
      split_ifs with hnewline hreturn htab hbackspace hfeed hplain
      . exact hshort (by simp [hnewline, shortEscapes])
      . exact hshort (by simp [hreturn, shortEscapes])
      . exact hshort (by simp [htab, shortEscapes])
      . exact hshort (by simp [hbackspace, shortEscapes])
      . exact hshort (by simp [hfeed, shortEscapes])
      . have hspells := SpellsCode.plain ⟨hplain.1, hplain.2, not_or.1 hquote⟩
        rwa [toNat_ofNat_of_ne (by intro hzero; simp [hzero] at hplain)] at hspells
      . refine .unit (by omega) ?_ ?_
        . rintro c ⟨hfirst, hlast, _⟩ rfl
          rw [Char.ofNat_toNat] at hplain
          exact hplain ⟨hfirst, hlast⟩
        . rintro ⟨c, letter⟩ hentry rfl
          simp only [Char.ofNat_toNat] at hquote hnewline hreturn htab hbackspace hfeed
          simp [shortEscapes] at hentry
          tauto

/--
A text stands between quotes.
-/
def Quotes (s : WideText) (quoted : String) : Prop :=
  ∃ parts, List.Forall₂ SpellsCode s.codes parts ∧ quoted.toList = '"' :: (parts.flatten ++ ['"'])

theorem quotes_quote (s : WideText) : Quotes s (quote s) := by
  refine ⟨s.codes.map escape, ?_, ?_⟩
  . rw [List.forall₂_map_right_iff, List.forall₂_same]
    exact fun code _ => spellsCode_escape code
  . simp [quote, List.flatMap_def]

/--
A value is spelled as a text. Its parts stand between commas.
-/
inductive Spells : Json → String → Prop where
  | null : Spells null "null"
  | true : Spells (bool true) "true"
  | false : Spells (bool false) "false"
  | int (value : Int) : Spells (int value) (toString value)
  | str {value : WideText} {text : String} (h : Quotes value text) : Spells (str value) text
  | array {items : List Json} {texts : List String} (h : List.Forall₂ Spells items texts) :
      Spells (array items) ("[" ++ String.intercalate ", " texts ++ "]")
  | object {members : List (String × Json)} {names texts : List String}
      (hnames : List.Forall₂ Quotes (members.map fun m => WideText.ofString m.1) names)
      (htexts : List.Forall₂ Spells (members.map (·.2)) texts) :
      Spells (object members)
        ("\x7b" ++ String.intercalate ", "
          (names.zipWith (fun name text => name ++ ": " ++ text) texts) ++ "\x7d")

theorem renderMembers_eq (members : List (String × Json)) :
    renderMembers members =
      (members.map fun m => quote (WideText.ofString m.1)).zipWith
        (fun name text => name ++ ": " ++ text) (members.map fun m => m.2.render) := by
  induction members with
  | nil => rfl
  | cons member members ih =>
    rw [renderMembers, ih]
    rfl

mutual

theorem spells_render (j : Json) : j.Spells j.render := by
  cases j with
  | null => exact .null
  | bool value =>
    cases value with
    | false => exact .false
    | true => exact .true
  | int value => exact .int value
  | str value => exact .str (quotes_quote value)
  | array items =>
    rw [render]
    exact .array (spells_renderItems items)
  | object members =>
    rw [render, renderMembers_eq]
    refine .object ?_ (spells_members members)
    rw [List.forall₂_map_left_iff, List.forall₂_map_right_iff, List.forall₂_same]
    exact fun m _ => quotes_quote _

theorem spells_renderItems (items : List Json) :
    List.Forall₂ Spells items (renderItems items) := by
  cases items with
  | nil => exact .nil
  | cons item items => exact .cons (spells_render item) (spells_renderItems items)

theorem spells_members (members : List (String × Json)) :
    List.Forall₂ Spells (members.map (·.2)) (members.map fun m => m.2.render) := by
  match members with
  | [] => exact .nil
  | (_, value) :: members => exact .cons (spells_render value) (spells_members members)

end

def IsAscii (cs : List Char) : Prop :=
  ∀ c ∈ cs, c.toNat < 128

instance (cs : List Char) : Decidable (IsAscii cs) :=
  List.decidableBAll (fun c : Char => c.toNat < 128) cs

theorem isAscii_append {cs ds : List Char} : IsAscii (cs ++ ds) ↔ IsAscii cs ∧ IsAscii ds := by
  simp [IsAscii, or_imp, forall_and]

theorem isAscii_cons {c : Char} {cs : List Char} :
    IsAscii (c :: cs) ↔ c.toNat < 128 ∧ IsAscii cs := by
  simp [IsAscii]

theorem isAscii_intercalate {texts : List String} (h : ∀ text ∈ texts, IsAscii text.toList) :
    IsAscii (String.intercalate ", " texts).toList := by
  have hcomma : IsAscii ", ".toList := by decide
  rw [String.toList_intercalate]
  induction texts with
  | nil => simp [IsAscii]
  | cons text texts ih =>
    cases texts with
    | nil => simpa using h
    | cons next texts =>
      have htext := h text List.mem_cons_self
      have htexts := ih fun t ht => h t (List.mem_cons_of_mem text ht)
      simp only [List.map_cons, List.intercalate_cons_cons, isAscii_append] at htexts ⊢
      exact ⟨⟨htext, hcomma⟩, htexts⟩

theorem isAscii_zipWith {names texts : List String} (hnames : ∀ name ∈ names, IsAscii name.toList)
    (htexts : ∀ text ∈ texts, IsAscii text.toList) :
    ∀ text ∈ names.zipWith (fun name text => name ++ ": " ++ text) texts, IsAscii text.toList := by
  intro text hmem
  rw [← List.map_uncurry_zip_eq_zipWith] at hmem
  obtain ⟨⟨name, value⟩, hpair, rfl⟩ := List.mem_map.1 hmem
  obtain ⟨hname, hvalue⟩ := List.of_mem_zip hpair
  change IsAscii (name ++ ": " ++ value).toList
  simp only [String.toList_append, isAscii_append]
  exact ⟨⟨hnames name hname, by decide⟩, htexts value hvalue⟩

theorem isAscii_unitDigits (unit : Nat) : IsAscii (unitDigits unit) := by
  have hdigit : ∀ d < 16, (Nat.digitChar d).toNat < 128 := by decide
  have hmod (n : Nat) : (Nat.digitChar (n % 16)).toNat < 128 :=
    hdigit _ (Nat.mod_lt n (by decide))
  simp [IsAscii, unitDigits, hmod]

theorem SpellsCode.isAscii {code : Nat} {cs : List Char} (h : SpellsCode code cs) :
    IsAscii cs := by
  have hescape (unit : Nat) : IsAscii ('\\' :: 'u' :: unitDigits unit) := by
    rw [isAscii_cons, isAscii_cons]
    exact ⟨by decide, by decide, isAscii_unitDigits unit⟩
  cases h with
  | @plain c h =>
    have hlast : c.toNat ≤ '~'.toNat := UInt32.le_iff_toNat_le.1 (Char.le_def.1 h.2.1)
    simp only [isAscii_cons]
    exact ⟨Nat.lt_of_le_of_lt hlast (by decide), by simp [IsAscii]⟩
  | short h =>
    have hletter : ∀ entry ∈ shortEscapes, entry.2.toNat < 128 := by decide
    simpa [IsAscii] using hletter _ h
  | unit => exact hescape code
  | pair => exact isAscii_append.2 ⟨hescape _, hescape _⟩

theorem Quotes.isAscii {s : WideText} {text : String} (h : Quotes s text) :
    IsAscii text.toList := by
  obtain ⟨parts, hparts, htext⟩ := h
  rw [htext, isAscii_cons, isAscii_append]
  refine ⟨by decide, ?_, by decide⟩
  intro c hc
  obtain ⟨part, hpart, hc⟩ := List.mem_flatten.1 hc
  obtain ⟨_, _, hspells⟩ := exists_of_forall₂ hparts.flip hpart
  exact hspells.isAscii c hc

theorem isAscii_toString (value : Int) : IsAscii (toString value).toList := by
  have hdigits (n : Nat) : IsAscii n.repr.toList := by
    intro c hc
    rw [Nat.toList_repr] at hc
    have hdigit := Nat.isDigit_of_mem_toDigits (by decide) (by decide) hc
    simp only [Char.isDigit, Bool.and_eq_true, decide_eq_true_eq] at hdigit
    have hlast : c.toNat ≤ '9'.toNat := UInt32.le_iff_toNat_le.1 hdigit.2
    exact Nat.lt_of_le_of_lt hlast (by decide)
  rw [Int.toString_eq_repr, Int.repr_eq_if]
  split
  . exact hdigits _
  . rw [String.toList_append, isAscii_append]
    exact ⟨by decide, hdigits _⟩

mutual

/--
What a value is spelled as consists of characters of ASCII only.
-/
theorem Spells.isAscii {j : Json} {text : String} (h : j.Spells text) : IsAscii text.toList := by
  cases j with
  | null =>
    cases h
    decide
  | bool value => cases h <;> decide
  | int value =>
    cases h
    exact isAscii_toString value
  | str value =>
    cases h with
    | str h => exact h.isAscii
  | array items =>
    cases h with
    | array h =>
      simp only [String.toList_append, isAscii_append]
      exact ⟨⟨by decide, isAscii_intercalate (isAscii_items h)⟩, by decide⟩
  | object members =>
    cases h with
    | @object _ names texts hnames htexts =>
      have hascii : ∀ name ∈ names, IsAscii name.toList := by
        intro name hname
        obtain ⟨member, _, hquotes⟩ := exists_of_forall₂ hnames.flip hname
        exact Quotes.isAscii hquotes
      simp only [String.toList_append, isAscii_append]
      exact ⟨⟨by decide, isAscii_intercalate (isAscii_zipWith hascii (isAscii_members htexts))⟩,
        by decide⟩

theorem isAscii_items {items : List Json} {texts : List String}
    (h : List.Forall₂ Spells items texts) : ∀ text ∈ texts, IsAscii text.toList := by
  cases items with
  | nil =>
    cases h
    simp
  | cons item items =>
    cases h with
    | cons htext htexts =>
      exact List.forall_mem_cons.2 ⟨htext.isAscii, isAscii_items htexts⟩

theorem isAscii_members {members : List (String × Json)} {texts : List String}
    (h : List.Forall₂ Spells (members.map (·.2)) texts) : ∀ text ∈ texts, IsAscii text.toList := by
  match members, h with
  | [], .nil => simp
  | (_, value) :: members, .cons htext htexts =>
    exact List.forall_mem_cons.2 ⟨htext.isAscii, isAscii_members htexts⟩

end

end Json

end Report

end MigrationLint
