import MigrationLint.Config.Basic
import MigrationLint.FileTree.Reading
import MigrationLint.Number.Integer
import MigrationLint.Rule.Engine

/-!
This module contains the outcomes of commands: an exit status, or the failure that ended the command
before it had one, and what was written until then. A stream that cannot encode what is written to
it is one more way to fail.
-/

namespace MigrationLint

namespace Command

/--
What a command does not handle: a configuration that cannot be read as one, a rule that stopped, a
number that is none, a source file that cannot be read, a tree without nodes, or an output that
cannot be encoded.
-/
inductive Failure where
  | config (error : LoadError)
  | rule (error : RuleError)
  | number (text : WideText) (fault : Integer.Fault)
  | source (file : WideText) (error : ReadError)
  | noNodes
  | output
  deriving DecidableEq, Repr

def Failure.message : Failure → WideText
  | config (.config error) => error.message
  | config .nullInPath => AccessError.nullInPath.message ""
  | config .unencodablePath => AccessError.unencodable.message ""
  | config .undecodable => "the configuration is not encoded as UTF-8"
  | config (.document _) => "the document of the configuration has no value"
  | config .longName => "the name of a check is a number with too many digits"
  | rule error => error.message
  | number text fault => fault.message text
  | source file error => error.message file
  | noNodes => RuleError.noTree.message
  | output => "the output cannot be encoded"

/--
The outcome of a command: its status, if its output can be written, and what it writes.
-/
structure Outcome where
  status : Except Failure Nat
  stdout : WideText := ""
  stderr : WideText := ""

/--
Get the status of a command whose output goes to a stream, given the codes that the stream can
encode. What goes to the other stream is escaped as needed.
-/
def Outcome.statusOn (encodes : Nat → Bool) (o : Outcome) : Except Failure Nat :=
  if o.stdout.codes.all encodes then o.status else .error .output

def unlines (lines : List WideText) : WideText :=
  ⟨lines.flatMap fun line => line.codes ++ ['\n'.toNat]⟩

end Command

end MigrationLint
