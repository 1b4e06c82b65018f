import MigrationLint.Node.Basic

/-!
This module contains what rules report: a message about a place, with the name of the rule.
-/

namespace MigrationLint

/--
A report of a rule about a place.
-/
structure Diagnostic where
  rule : String
  message : String
  location : Location
  deriving DecidableEq, Repr, Inhabited

def Diagnostic.render (d : Diagnostic) : WideText :=
  d.location.render ++ " - " ++ d.message

abbrev Sink := Array Diagnostic

def Sink.extend (sink : Sink) (diagnostics : List Diagnostic) : Sink :=
  sink.appendList diagnostics

@[simp]
theorem Sink.toList_extend (sink : Sink) (diagnostics : List Diagnostic) :
    (sink.extend diagnostics).toList = sink.toList ++ diagnostics := by
  simp [extend]

end MigrationLint
