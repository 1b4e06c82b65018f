import MigrationLint.Report.Json
import MigrationLint.Report.Tally

/-!
This module contains summaries: how many items there are of each severity and of each rule. The
severities stand in a table together with their total and the table of the rules, so that a severity
that goes by the name of one of these gives way to it.
-/

namespace MigrationLint

namespace Report

/--
What a summary counts of an item. No severity counts as a warning, and no rule or an empty one is
not counted.
-/
structure Mark where
  severity? : Option String
  rule? : Option String
  deriving DecidableEq, Repr

def Mark.severity (m : Mark) : String := m.severity?.getD "warning"

def Mark.rule (m : Mark) : Option String := m.rule?.filter (· ≠ "")

/--
How many items there are of each severity and of each rule.
-/
structure Summary where
  severities : Tally
  rules : Tally
  deriving DecidableEq, Repr

/--
A value in the table of a summary.
-/
inductive Summary.Field where
  | count (value : Nat)
  | byRule (rules : Tally)
  deriving DecidableEq, Repr

namespace Summary

def noSeverities : Tally := [("error", 0), ("warning", 0)]

def ofMarks (marks : List Mark) : Summary where
  severities := noSeverities.addAll (marks.map Mark.severity)
  rules := Tally.addAll [] (marks.filterMap Mark.rule)

def total (s : Summary) : Nat :=
  s.severities.count "error" + s.severities.count "warning"

/--
List a summary as a table. The total and the rules are put in last.
-/
def fields (s : Summary) : Table String Field :=
  Table.put "by_rule" (.byRule s.rules)
    (Table.put "total" (.count s.total) (s.severities.map fun (name, n) => (name, .count n)))

def Field.toJson : Field → Json
  | count value => .int value
  | byRule rules => .object (rules.map fun (name, n) => (name, .int n))

def toJson (s : Summary) : Json :=
  .object (s.fields.map fun (name, field) => (name, field.toJson))

end Summary

end Report

end MigrationLint
