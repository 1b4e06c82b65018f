import MigrationLint.FileTree.Basic
import MigrationLint.Table
import MigrationLint.Text.Lines
import MigrationLint.Text.Utf8
import MigrationLint.Text.Wide
import MigrationLint.Yaml.Reader

/-!
This module contains configurations: the checks that a project wants, by name, with their options.
They are read from a document that maps names to options, by any reader of documents. Names that are
written alike are one name, which keeps its first place and its last options.
-/

namespace MigrationLint

abbrev Config := Table WideText Options

/--
Why a configuration is refused.
-/
inductive ConfigError where
  | noDocument (source : WideText)
  | noMapping (source : WideText)
  | badOptions (name source : WideText)
  | unreadable (path : WideText) (error : AccessError)
  | unknownChecks (names : List WideText) (valid : List String)
  deriving DecidableEq, Repr

def ConfigError.message : ConfigError → WideText
  | noDocument source => "Invalid YAML in " ++ source
  | noMapping source => source ++ " must contain a mapping of check names to options."
  | badOptions name source => "Options for " ++ name ++ " in " ++ source ++ " must be a mapping."
  | unreadable path error => "Could not read config file " ++ path ++ ": " ++ error.message path
  | unknownChecks names valid =>
    "Unknown check(s) in config: " ++ WideText.join ", " names ++ ". Valid checks: " ++
      String.intercalate ", " valid ++ "."

/--
Why no configuration could be read: it is refused, its path cannot be one, its bytes are no text,
its document has no value, or the name of a check is a number with too many digits.
-/
inductive LoadError where
  | config (error : ConfigError)
  | nullInPath
  | unencodablePath
  | undecodable
  | document (fault : Yaml.Fault)
  | longName
  deriving DecidableEq, Repr

namespace Config

/--
Read the options of a check in a document. Null stands for no options. The one value that encloses
the options of a check is the document, which is a mapping itself.
-/
def optionsOf? (document : Options) : Yaml.Value → Option Options
  | .scalar .null => some []
  | .mapping entries => some entries
  | .enclosing => some document
  | _ => none

def addEntry (source : WideText) (document : Options) (config : Config)
    (entry : Yaml.Scalar × Yaml.Value) : Except LoadError Config :=
  match entry.1.render?, optionsOf? document entry.2 with
  | none, _ => .error .longName
  | some name, none => .error (.config (.badOptions name source))
  | some name, some options => .ok (Table.put name options config)

/--
Read the value of a document. Null stands for no checks.
-/
def ofValue (source : WideText) : Yaml.Value → Except LoadError Config
  | .scalar .null => .ok []
  | .mapping entries => entries.foldlM (addEntry source entries) []
  | _ => .error (.config (.noMapping source))

def parse (reader : Yaml.Reader) (text : String) (source : WideText) : Except LoadError Config :=
  match reader text with
  | .error .malformed => .error (.config (.noDocument source))
  | .error fault => .error (.document fault)
  | .ok value => ofValue source value

def noFile : WideText := "<config>"

def defaultPath : WideText := "config/rails_best_practices.yml"

def read (reader : Yaml.Reader) (system : FileSystem) (path : WideText) :
    Except LoadError Config :=
  match system.openFile path with
  | .error .nullInPath => .error .nullInPath
  | .error .unencodable => .error .unencodablePath
  | .error error => .error (.config (.unreadable path error))
  | .ok file =>
    match Utf8.decode? file.bytes with
    | none => .error .undecodable
    | some text => parse reader (String.ofList (Lines.normalize text.toList)) path

def load (reader : Yaml.Reader) (system : FileSystem) (path? : Option WideText) :
    Except LoadError (Option Config) :=
  match path? with
  | some path => (read reader system path).map some
  | none =>
    if system.isFileAt defaultPath then (read reader system defaultPath).map some else .ok none

end Config

end MigrationLint
