import MigrationLint.Proofs.Command.Status
import MigrationLint.Proofs.Report.Printed

/-!
This module contains what the ways to ask for a report have in common. The exit status, the counts
of the JSON object and the number at the end of the text agree, whatever the files are.
-/

namespace MigrationLint

namespace Command

variable {reader : Yaml.Reader} {system : FileSystem} {args : List WideText}

theorem dropSwitches_text (args : List WideText) :
    dropSwitches (textFlag :: args) = dropSwitches args := by
  simp [dropSwitches]

theorem Reaches.text {settings : Settings} {engine : Engine}
    (h : Reaches reader system args settings engine) :
    Reaches reader system (textFlag :: args) settings engine := by
  rw [Reaches, dropSwitches_text]
  exact h

theorem format_json (h : textFlag ∉ args) : (Switches.ofArgs args).format = .json := by
  simp [Switches.ofArgs, h]

theorem format_text (args : List WideText) :
    (Switches.ofArgs (textFlag :: args)).format = .text := by
  simp [Switches.ofArgs]

/--
A command that gets past its arguments and its configuration writes one report, as a JSON object or,
with the switch in front, as a text. Its status, its counts and the number that the text ends with
agree, and both forms list the same files and items in the same order.
-/
theorem check_agrees (reader : Yaml.Reader) (system : FileSystem) (args : List WideText)
    (settings : Settings) (engine : Engine) (hparsed : system.IsParsed) (hjson : textFlag ∉ args)
    (h : Reaches reader system args settings engine) :
    ∃ (report : Report) (status : Nat) (object : Report.Json) (spelled : String)
        (entries : List (List WideText)) (last : List WideText),
      List.Forall₂ (fun file r => r.file = file ∧ Engine.reportOf engine.rules system file = .ok r)
        (system.discoverAll settings.paths) report.files
      ∧ report.IsConsistent status
      ∧ (check reader system args).status = .ok status
      ∧ report.PrintedAs object ∧ object.Spells spelled
      ∧ IsLines (check reader system args).stdout [WideText.ofString spelled]
      ∧ (check reader system (textFlag :: args)).status = .ok status
      ∧ List.Forall₂ Report.FileReport.ShownAs report.files entries
      ∧ Report.Closes report.summary.rules.total last
      ∧ IsLines (check reader system (textFlag :: args)).stdout
          (entries.flatten ++ last ++ [WideText.ofString "[timing] total: 0 ms."]) := by
  obtain ⟨report, hfiles, hfaithful, hruns⟩ := runEngine_reports hparsed h.isSelectable settings
  obtain ⟨entries, last, hentries, hlast, hlines⟩ := Report.lines_eq hfaithful
  refine ⟨report, report.status, report.toJson, report.toJson.render, entries, last, hfiles,
    Report.isConsistent_status hfaithful, ?_, report.printedAs_toJson,
    Report.Json.spells_render _, ?_, ?_, hentries, hlast, ?_⟩
  . rw [check_of_reaches h]
    exact (hruns _).1
  . rw [check_of_reaches h, (hruns _).2, format_json hjson]
    exact isLines_unlines _
  . rw [check_of_reaches h.text]
    exact (hruns _).1
  . rw [check_of_reaches h.text, (hruns _).2, format_text, renderReport, hlines]
    exact isLines_unlines _

def createParse : ParseTree :=
  .node ⟨"program", true, false, false, some "Role.create", 0, none⟩
    [.node ⟨"call", true, false, false, some "Role.create", 0, none⟩
      [.node ⟨"constant", true, false, false, some "Role", 0, some "receiver"⟩ [],
       .node ⟨".", false, false, false, some ".", 0, none⟩ [],
       .node ⟨"identifier", true, false, false, some "create", 0, some "method"⟩ []]]

/--
A migration that creates a record, and a file with an error at its end.
-/
def mixedSystem : FileSystem where
  root := .directory "" [
    .directory "db" [.directory "migrate" [.file "1_roles.rb" ⟨true, .empty, createParse⟩]],
    .file "broken.rb" ⟨true, .empty, .node ⟨"program", true, false, true, some "end", 0, none⟩
      [.node ⟨"ERROR", true, false, true, some "end", 0, none⟩ []]⟩]
  working := []

theorem check_mixedSystem :
    let reader := Yaml.Value.ofText ⟨40, 40⟩
    let args : List WideText := ["db/migrate/1_roles.rb", "broken.rb", "missing.rb"]
    let settings : Settings := ⟨[], none, 1, args⟩
    Reaches reader mixedSystem args settings { rules := [.isolateSeedData []] }
      ∧ (check reader mixedSystem args).status = .ok 1
      ∧ ∃ (report : Report) (object : Report.Json) (spelled : String)
          (entries : List (List WideText)) (last : List WideText),
        report.files.length = 3 ∧ report.IsConsistent 1
        ∧ report.PrintedAs object ∧ object.Spells spelled
        ∧ IsLines (check reader mixedSystem args).stdout [WideText.ofString spelled]
        ∧ (check reader mixedSystem (textFlag :: args)).status = .ok 1
        ∧ List.Forall₂ Report.FileReport.ShownAs report.files entries
        ∧ Report.Closes report.summary.rules.total last
        ∧ IsLines (check reader mixedSystem (textFlag :: args)).stdout
            (entries.flatten ++ last ++ [WideText.ofString "[timing] total: 0 ms."]) := by
  intro reader args settings
  have hparsed : mixedSystem.IsParsed := by
    unfold FileSystem.IsParsed
    decide
  have hengine : Engine.build [] none #[] = .ok { rules := [.isolateSeedData []] } := by
    simp [Engine.build, Selection.selected, Selection.sortNames, Selection.allChecks,
      Selection.isEnabled, Selection.rule?, Selection.optionsFor, Table.get?]
  have hreaches : Reaches reader mixedSystem args settings { rules := [.isolateSeedData []] } :=
    ⟨rfl, none, rfl, hengine⟩
  have hstatus : (check reader mixedSystem args).status = .ok 1 := by decide +kernel
  obtain ⟨report, status, object, spelled, entries, last, hfiles, hconsistent, hends, hobject,
    hspelled, hstdout, htext, hentries, hlast, hlines⟩ :=
    check_agrees reader mixedSystem args settings _ hparsed (by decide) hreaches
  cases hends.symm.trans hstatus
  exact ⟨hreaches, hstatus, report, object, spelled, entries, last, hfiles.length_eq.symm,
    hconsistent, hobject, hspelled, hstdout, htext, hentries, hlast, hlines⟩

end Command

end MigrationLint
