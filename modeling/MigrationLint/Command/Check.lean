import MigrationLint.Command.Outcome
import MigrationLint.Command.Settings
import MigrationLint.FileTree.Discovery
import MigrationLint.Report.OfFiles

/-!
This module contains the command that checks files. Its exit status is one if there are diagnostics,
two if the command is refused, and else zero.
-/

namespace MigrationLint

namespace Command

def renderReport (report : Report) : Format → WideText
  | .json => unlines [report.toJson.render]
  | .text => unlines report.lines

/--
Refuse a command. A JSON object goes where a report would, text goes where a log would.
-/
def refuse (error : UsageError) : Format → Outcome
  | .json =>
    let object := Report.Json.object [("ok", .bool false), ("error", .str error.message)]
    { status := .ok 2, stdout := unlines [object.render] }
  | .text => { status := .ok 2, stderr := error.message ++ "\n" }

def startLine (files : List WideText) (checks : List String) : LogLine :=
  ⟨"run_checks", "checking " ++ toString files.length ++ " file(s) with " ++
    String.intercalate ", " checks⟩

def runEngine (system : FileSystem) (switches : Switches) (settings : Settings)
    (engine : Engine) : Outcome :=
  let checks := Selection.sortNames (engine.rules.map Rule.identifier)
  let files := system.discoverAll settings.paths
  let batch := engine.checkFiles system files settings.jobs (Engine.scheduleInTurn files)
  let log := startLine files checks :: batch.log
  let stderr := if switches.debug then unlines (log.map LogLine.render) else ""
  match batch.outcome with
  | .error error => { status := .error (.rule error), stderr }
  | .ok reports =>
    let report : Report := ⟨reports, checks⟩
    { status := .ok report.status, stdout := renderReport report switches.format, stderr }

def runSettings (reader : Yaml.Reader) (system : FileSystem) (switches : Switches)
    (settings : Settings) : Outcome :=
  match Config.load reader system settings.config? with
  | .error (.config error) => refuse (.config error) switches.format
  | .error error => { status := .error (.config error) }
  | .ok config? =>
    match Engine.build settings.enabled (config?.map Config.toDraft) #[] with
    | .error error => refuse (.config error) switches.format
    | .ok engine => runEngine system switches settings engine

/--
Run a check with arguments, in a file system and with a reader of documents.
-/
def check (reader : Yaml.Reader) (system : FileSystem) (args : List WideText) : Outcome :=
  let switches := Switches.ofArgs args
  match Settings.ofArgs (dropSwitches args) with
  | .error error => refuse error switches.format
  | .ok settings => runSettings reader system switches settings

end Command

end MigrationLint
