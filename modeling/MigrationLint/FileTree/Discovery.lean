import MigrationLint.FileTree.Basic

/-!
This module contains the discovery of the files to check: a path to a directory stands for the files
with the ending `.rb` below it, any other path for itself. Directories of vendored code and of tests
are left out, wherever they stand below the directory that was asked for. The files of a directory
come before those of its subdirectories, and both in the order of their names.
-/

namespace MigrationLint

namespace FileTree

def ignoredDirectories : List WideText :=
  ["vendor", "spec", "test", "tmp", "node_modules", ".git"]

def join (path name : WideText) : WideText :=
  if path.codes.getLast?.all (· == '/'.toNat) then path ++ name else path ++ "/" ++ name

def sortByName {α : Type} (pairs : List (WideText × α)) : List (WideText × α) :=
  pairs.mergeSort fun a b => !decide (b.1 < a.1)

def isSourceName (name : WideText) : Bool :=
  (WideText.ofString ".rb").codes.isSuffixOf name.codes

def sourceNames (entries : List FileTree) : List (WideText × Unit) :=
  (entries.filter fun e => !e.isDirectory && isSourceName e.name).map fun e => (e.name, ())

mutual

def sourcesBelow (path : WideText) : FileTree → List WideText
  | file _ _ => []
  | directory _ entries =>
    (sortByName (sourceNames entries)).map (fun (name, _) => join path name) ++
      (sortByName (subdirectories path entries)).flatMap (·.2)

def subdirectories (path : WideText) : List FileTree → List (WideText × List WideText)
  | [] => []
  | e :: es =>
    if e.isDirectory ∧ e.name ∉ ignoredDirectories then
      (e.name, sourcesBelow (join path e.name) e) :: subdirectories path es
    else subdirectories path es

end

end FileTree

namespace FileSystem

/--
List the files that a path stands for.
-/
def discover (system : FileSystem) (path : WideText) : List WideText :=
  match system.resolve path with
  | .ok (.directory name entries) => FileTree.sourcesBelow path (.directory name entries)
  | _ => [path]

/--
List the files that paths stand for.
-/
def discoverAll (system : FileSystem) (paths : List WideText) : List WideText :=
  paths.flatMap system.discover

end FileSystem

end MigrationLint
