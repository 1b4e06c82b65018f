import MigrationLint.Command.Check
import MigrationLint.Command.Outline
import MigrationLint.ParseTree.RowText
import MigrationLint.Yaml.Value.OfGraph

/-!
This module contains the program. It takes in the working directory and what its arguments lead to,
runs a command on them, and writes what the command wants to be written. The parse tree of a source
file is read from the file beside it that has the same name and `.rows` after it. Links are not
followed.
-/

namespace MigrationLint

def readBytes? (entry : IO.FS.DirEntry) : IO (Option ByteArray) := do
  try
    return some (← IO.FS.readBinFile entry.path)
  catch _ =>
    return none

/--
Get what is wanted below an entry of a directory, given what is wanted below the directory. The
empty way stands for everything.
-/
def wantedBelow (name : String) (wanted : List (List String)) : List (List String) :=
  wanted.filterMap fun way =>
    match way with
    | [] => some []
    | first :: way => if first = name then some way else none

partial def takeIn (wanted : List (List String)) (entries : List IO.FS.DirEntry) :
    IO (List FileTree) :=
  entries.filterMapM fun entry => do
    let below := wantedBelow entry.fileName wanted
    if below.isEmpty then
      return none
    else if (← entry.path.symlinkMetadata).type == .dir then
      return some (.directory entry.fileName (← takeIn below (← entry.path.readDir).toList))
    else
      let bytes? ← readBytes? entry
      let bytes := bytes?.getD .empty
      let rows? ←
        match entries.find? fun other => other.fileName == entry.fileName ++ ".rows" with
        | some other => readBytes? other
        | none => pure none
      let parse :=
        match rows? with
        | some rows => ParseTree.ofText bytes (Utf8.decodeLossy rows)
        | none => .unparsed
      return some (.file entry.fileName ⟨bytes?.isSome, bytes, parse⟩)

/--
Get the way from the root to what a path leads to. The root has the empty name.
-/
def wayTo? (path : String) : IO (Option (List String)) := do
  try
    return some ((← IO.FS.realPath path).components.filter (· ≠ ""))
  catch _ =>
    return none

def outlineFlag : WideText := "--outline"

/--
How far the program reads documents.
-/
def readingLimits : Yaml.Graph.Limits := ⟨489, 980⟩

def runCommand (system : FileSystem) : List WideText → Command.Outcome
  | arg :: args =>
    if arg = outlineFlag then Command.outline system args
    else Command.check (Yaml.Value.ofText readingLimits) system (arg :: args)
  | [] => Command.check (Yaml.Value.ofText readingLimits) system []

end MigrationLint

open MigrationLint in
def main (args : List String) : IO UInt32 := do
  let working := (← wayTo? ".").getD []
  let wanted := working :: (← args.filterMapM wayTo?)
  let entries ← takeIn wanted (← (← IO.FS.realPath "/").readDir).toList
  let outcome := runCommand ⟨.directory "" entries, working.map .ofString⟩ (args.map .ofString)
  IO.print outcome.stdout.shown
  IO.eprint outcome.stderr.shown
  match outcome.statusOn fun code => code.isValidChar with
  | .ok status => return status.toUInt32
  | .error failure =>
    IO.eprintln failure.message.shown
    return 1
