/-!
This module contains the reading of line ends: a carriage return, alone or in front of a line feed,
is read as a line feed.
-/

namespace MigrationLint

namespace Lines

def normalize : List Char → List Char
  | [] => []
  | '\r' :: '\n' :: cs => '\n' :: normalize cs
  | '\r' :: cs => '\n' :: normalize cs
  | c :: cs => c :: normalize cs

end Lines

end MigrationLint
