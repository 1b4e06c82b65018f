/-!
This module contains the reasons for which a text is no document.
-/

namespace MigrationLint

namespace Yaml

/--
Why a text is no document. Its form is wrong, its nodes stand in each other too deep, or a scalar
has no value: a number or a date is out of range, a number has no digits, a truth value is an
unknown word, the form of a date is wrong or a date is written as a mapping, the code of a character
or the unit of a part of a number is too large.
-/
inductive Fault where
  | malformed
  | tooDeep
  | badValue
  | noDigits
  | unknownWord
  | noDate
  | mappedDate
  | hugeCode
  | hugeUnit
  deriving DecidableEq, Repr

end Yaml

end MigrationLint
