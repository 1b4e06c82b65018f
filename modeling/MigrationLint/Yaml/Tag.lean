import MigrationLint.Text.Wide
import MigrationLint.Yaml.Timestamp

/-!
This module contains the tags of nodes, and the tag that a plain scalar has by its form: truth
values, null, whole numbers and floating point numbers of several notations, dates, and the signs
for merging and for a value.
-/

namespace MigrationLint

namespace Yaml

namespace Tag

def language : String := "tag:yaml.org,2002:"

def null : String := language ++ "null"

def bool : String := language ++ "bool"

def int : String := language ++ "int"

def float : String := language ++ "float"

def str : String := language ++ "str"

def timestamp : String := language ++ "timestamp"

def binary : String := language ++ "binary"

def seq : String := language ++ "seq"

def map : String := language ++ "map"

/--
The tag of sets, which are mappings whose values do not count.
-/
def set : String := language ++ "set"

def pairs : String := language ++ "pairs"

/--
The tag of sequences of pairs that stand for a mapping with an order.
-/
def omap : String := language ++ "omap"

def merge : String := language ++ "merge"

def value : String := language ++ "value"

def yaml : String := language ++ "yaml"

def scalars : List String := [null, bool, int, float, binary, timestamp, str]

def collections : List String := [seq, map, set, pairs, omap]

def truthWords : List (String × Bool) :=
  [("yes", true), ("no", false), ("true", true), ("false", false), ("on", true), ("off", false)]

def isSpelling (word text : List Char) : Bool :=
  text == word || text == word.map Char.toUpper ||
    match word with
    | [] => false
    | c :: cs => text == c.toUpper :: cs

def dropSign : List Char → List Char
  | '-' :: cs => cs
  | '+' :: cs => cs
  | cs => cs

def isDigitOr_ (c : Char) : Bool := c.isDigit || c = '_'

def colonParts : List Char → List (List Char)
  | [] => [[]]
  | c :: cs =>
    match colonParts cs with
    | [] => [[c]]
    | part :: parts => if c = ':' then [] :: part :: parts else (c :: part) :: parts

def isSixty : List Char → Bool
  | [d] => d.isDigit
  | [t, d] => '0' ≤ t && t ≤ '5' && d.isDigit
  | _ => false

def isSixties (text : List Char) : Bool :=
  match colonParts text with
  | [] :: part :: parts => (part :: parts).all isSixty
  | _ => false

def isInt (text : List Char) : Bool :=
  match dropSign text with
  | ['0'] => true
  | '0' :: 'b' :: c :: cs => (c :: cs).all fun c => c = '0' || c = '1' || c = '_'
  | '0' :: 'x' :: c :: cs =>
    (c :: cs).all fun c =>
      isDigitOr_ c || ('a' ≤ c && c ≤ 'f') || ('A' ≤ c && c ≤ 'F')
  | '0' :: c :: cs => (c :: cs).all fun c => ('0' ≤ c && c ≤ '7') || c = '_'
  | c :: cs =>
    c.isDigit &&
      (let rest := cs.dropWhile isDigitOr_
       rest.isEmpty || isSixties rest)
  | [] => false

def isExponent : List Char → Bool
  | [] => true
  | e :: s :: c :: cs =>
    (e = 'e' || e = 'E') && (s = '-' || s = '+') && (c :: cs).all Char.isDigit
  | _ => false

def isFloat (text : List Char) : Bool :=
  let isPoint (cs : List Char) : Bool :=
    match cs with
    | '.' :: cs => isExponent (cs.dropWhile isDigitOr_)
    | _ => false
  let isInf (cs : List Char) : Bool :=
    match cs with
    | '.' :: cs => isSpelling ['i', 'n', 'f'] cs
    | _ => false
  match text with
  | '.' :: c :: cs =>
    (c.isDigit && isPoint ('.' :: c :: cs)) || isInf text ||
      [['n', 'a', 'n'], ['N', 'a', 'N'], ['N', 'A', 'N']].contains (c :: cs)
  | _ =>
    isInf (dropSign text) ||
      match dropSign text with
      | c :: cs =>
        c.isDigit &&
          (let rest := cs.dropWhile isDigitOr_
           isPoint rest ||
             (isSixties (rest.takeWhile (· != '.')) &&
               match rest.dropWhile (· != '.') with
               | '.' :: cs => cs.all isDigitOr_
               | _ => false))
      | [] => false

def isNull (text : List Char) : Bool :=
  text == ['~'] || isSpelling ['n', 'u', 'l', 'l'] text

/--
Choose the tag of a plain scalar by its form. No characters at all stand for null. A line feed at
the end of other texts does not count.
-/
def ofPlain (text : WideText) : String :=
  let cs := text.chars
  let cs := if cs.getLast? = some '\n' then cs.dropLast else cs
  if text.codes.isEmpty then null
  else if truthWords.any fun (word, _) => isSpelling word.toList cs then bool
  else if isFloat cs then float
  else if isInt cs then int
  else if cs == ['<', '<'] then merge
  else if isNull cs then null
  else if (Timestamp.read? true cs).isSome then timestamp
  else if cs == ['='] then value
  else if cs == ['!'] || cs == ['&'] || cs == ['*'] then yaml
  else str

end Tag

end Yaml

end MigrationLint
