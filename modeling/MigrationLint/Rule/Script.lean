import MigrationLint.Rule.SeedData

/-!
This module contains what handlers do, those of the rule on seed data and those that are given by
lists of actions. A handler that is stopped by an error keeps what it did before.
-/

namespace MigrationLint

namespace RuleRun

def act (n : Node) (run : RuleRun) : Action → Except Stopped RuleRun
  | .visit => .ok { run with notes := run.notes.push (.node run.phase n.kind n.line) }
  | .emit message => run.orStop (run.emit message n)
  | .role name =>
    match n.role name with
    | .ok target =>
      .ok { run with notes := run.notes.push (.role name (target.map Node.Target.show)) }
    | .error error => .error ⟨.foreignRole error, run⟩
  | .begin phase => .ok (run.begin phase)

def apply (run : RuleRun) (handler : Handler) (n : Node) : Except Stopped RuleRun :=
  match handler with
  | .rememberAssignment => run.orStop ((SeedData.newVariable? n).map run.remember)
  | .rememberDefault => run.orStop ((SeedData.newDefault? n).map run.remember)
  | .reportCall => run.orStop (run.reportCall n)
  | .script actions => actions.foldlM (act n) run

end RuleRun

end MigrationLint
