import MigrationLint.ParseTree.Basic
import MigrationLint.Text.Quoted

/-!
This module contains trees of files and directories, file systems, and what paths lead to in them. A
file system is a tree together with the working directory, where the paths start that do not start
at the root. The parse tree of a file is part of what is known about it.
-/

namespace MigrationLint

/--
What is known about a file. A file that is not readable exists all the same.
-/
structure SourceFile where
  isReadable : Bool
  bytes : ByteArray
  parse : ParseTree

/--
A file or a directory, with its name.
-/
inductive FileTree where
  | file (name : WideText) (source : SourceFile)
  | directory (name : WideText) (entries : List FileTree)

/--
Why the file that a path leads to cannot be read. A path that stands for no bytes, or for a null
byte, cannot even be asked for.
-/
inductive AccessError where
  | missing
  | notDirectory
  | isDirectory
  | denied
  | nullInPath
  | unencodable
  deriving DecidableEq, Repr

def AccessError.message (path : WideText) (e : AccessError) : String :=
  match e with
  | missing => "[Errno 2] No such file or directory: " ++ quoted path
  | notDirectory => "[Errno 20] Not a directory: " ++ quoted path
  | isDirectory => "[Errno 21] Is a directory: " ++ quoted path
  | denied => "[Errno 13] Permission denied: " ++ quoted path
  | nullInPath => "embedded null byte"
  | unencodable => "surrogates not allowed"

namespace FileTree

def name : FileTree → WideText
  | file name _ => name
  | directory name _ => name

/--
Get the entries of a directory; a file has none.
-/
def entries : FileTree → List FileTree
  | file _ _ => []
  | directory _ entries => entries

def isDirectory : FileTree → Bool
  | file _ _ => false
  | directory _ _ => true

/--
Find the entry of a name, which is told by its bytes.
-/
def entryNamed? (place : FileTree) (name : WideText) : Option FileTree :=
  place.entries.find? fun entry => entry.name.encoded == name.encoded

/--
Follow components from a place, given the places above it. Every component needs a directory to
start from, also an empty one and a dot. Nothing is above the root but the root.
-/
def follow (place : FileTree) (above : List FileTree) :
    List WideText → Except AccessError FileTree
  | [] => .ok place
  | component :: later =>
    if !place.isDirectory then .error .notDirectory
    else if component = "" ∨ component = "." then follow place above later
    else if component = ".." then
      match above with
      | [] => follow place [] later
      | parent :: above => follow parent above later
    else
      match place.entryNamed? component with
      | some entry => follow entry (place :: above) later
      | none => .error .missing

end FileTree

/--
All files there are, and the working directory: the names on the way to it from the root.
-/
structure FileSystem where
  root : FileTree
  working : List WideText

namespace FileSystem

/--
List the components of a path. A path with a slash in front starts at the root, and any other one in
the working directory.
-/
def components (system : FileSystem) (path : WideText) : List WideText :=
  if path.codes.head? = some '/'.toNat then path.splitAt '/'
  else system.working ++ path.splitAt '/'

/--
Find what a path leads to. The empty path leads nowhere.
-/
def resolve (system : FileSystem) (path : WideText) : Except AccessError FileTree :=
  if !path.isEncodable then .error .unencodable
  else if 0 ∈ path.codes then .error .nullInPath
  else if path = "" then .error .missing
  else system.root.follow [] (system.components path)

def existsAt (system : FileSystem) (path : WideText) : Bool :=
  match system.resolve path with
  | .ok _ => true
  | .error _ => false

def isFileAt (system : FileSystem) (path : WideText) : Bool :=
  match system.resolve path with
  | .ok place => !place.isDirectory
  | .error _ => false

def openFile (system : FileSystem) (path : WideText) : Except AccessError SourceFile :=
  match system.resolve path with
  | .error e => .error e
  | .ok (.directory _ _) => .error .isDirectory
  | .ok (.file _ source) => if source.isReadable then .ok source else .error .denied

end FileSystem

end MigrationLint
