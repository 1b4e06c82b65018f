import MigrationLint.FileTree.Basic

/-!
This module contains the reading of the source files to check. What does not exist and what is not a
file are told apart before a file is opened.
-/

namespace MigrationLint

/--
Why a source file cannot be read.
-/
inductive ReadError where
  | missing
  | notFile
  | access (error : AccessError)
  deriving DecidableEq, Repr

def baseName (path : WideText) : WideText :=
  ⟨(path.codes.reverse.takeWhile (· != '/'.toNat)).reverse⟩

def ReadError.message (path : WideText) (e : ReadError) : WideText :=
  match e with
  | missing => "Input file does not exist: " ++ path
  | notFile => "Input path is not a file: " ++ path
  | access error => "Could not read '" ++ baseName path ++ "': " ++ error.message path

namespace FileSystem

def readSource (system : FileSystem) (path : WideText) : Except ReadError SourceFile :=
  if !system.existsAt path then .error .missing
  else if !system.isFileAt path then .error .notFile
  else
    match system.openFile path with
    | .ok source => .ok source
    | .error error => .error (.access error)

end FileSystem

end MigrationLint
