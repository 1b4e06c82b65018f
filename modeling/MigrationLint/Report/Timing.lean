import MigrationLint.Number.Binary64.Thousandths
import MigrationLint.Report.Json

/-!
This module contains the times that a check takes, in milliseconds. Reports are written without
clock: they list the same names, each with the time zero.
-/

namespace MigrationLint

namespace Report

/--
How long the parsing of a file took, and how long the review.
-/
structure Timing where
  parse : Binary64
  review : Binary64
  deriving DecidableEq, Repr

namespace Timing

def fields (t : Timing) : List (String × Binary64) :=
  [("parse", t.parse), ("review", t.review), ("total", t.parse.add t.review)]

def render (t : Timing) : List (String × String) :=
  t.fields.map fun (name, time) => (name, time.renderDuration)

def zero : Timing := ⟨.ofInt 0, .ofInt 0⟩

def names : List String := zero.fields.map (·.1)

/--
Write the times of a check without a clock.
-/
def unmeasured : Json := .object (names.map fun name => (name, .int 0))

end Timing

end Report

end MigrationLint
