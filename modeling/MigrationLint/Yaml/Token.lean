import MigrationLint.Text.Wide

/-!
This module contains the tokens of a document. Indentation shows in tokens of its own, and a key is
announced by a token before it, also where the text shows the colon only.
-/

namespace MigrationLint

namespace Yaml

/--
What a directive says: the version of the language, a short form for tags, or something else.
-/
inductive Directive where
  | version (major : Nat)
  | tag (handle : String) (expansion : String)
  | other
  deriving DecidableEq, Repr

/--
A token of a document.
-/
inductive Token where
  | directive (value : Directive)
  | documentStart
  | documentEnd
  | streamEnd
  | blockSequenceStart
  | blockMappingStart
  | blockEnd
  | flowSequenceStart
  | flowSequenceEnd
  | flowMappingStart
  | flowMappingEnd
  | flowEntry
  | blockEntry
  | key
  | value
  | alias (name : String)
  | anchor (name : String)
  | tag (handle : Option String) (suffix : String)
  | scalar (text : WideText) (isPlain : Bool)
  deriving DecidableEq, Repr

end Yaml

end MigrationLint
