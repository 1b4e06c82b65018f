import MigrationLint.Yaml.Fault
import MigrationLint.Yaml.Value

/-!
This module contains the readers of documents, which find out what a text stands for. A program is
given the reader that it uses, and takes what the reader gives as it is.
-/

namespace MigrationLint

namespace Yaml

/--
A reader of documents. It gives the value of the one document of a text, and null if there is none.
A fault `malformed` is the reader's own refusal of a text; with any other fault it stops on the way.
-/
abbrev Reader := String → Except Fault Value

end Yaml

end MigrationLint
