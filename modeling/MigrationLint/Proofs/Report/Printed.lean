import MigrationLint.Proofs.Report.Count
import MigrationLint.Proofs.Report.Json

/-!
This module contains what is printed of a report: the members of the JSON object, which list the
files with their items and the summaries, and the lines of the text form, which list the same items
and end with the number of the findings.
-/

namespace MigrationLint

namespace Report

/--
The object that an item is printed as. What an item does not have is null.
-/
structure Item.PrintedAs (i : Item) (object : Json) : Prop where
  severity : ∃ name, object.member? "severity" = some (.str (WideText.ofString name))
    ∧ (i.severity, name) ∈ [(Severity.error, "error"), (.warning, "warning")]
  source : ∃ name, object.member? "source" = some (.str (WideText.ofString name))
    ∧ (i.source, name) ∈ [(Source.rule, "rule"), (.parser, "parser"), (.runtime, "runtime")]
  rule : object.member? "rule" = some (i.rule?.elim .null fun rule => .str rule)
  line : object.member? "line" = some (i.line?.elim .null .int)
  message : object.member? "message" = some (.str i.message)
  url : object.member? "url" = some (i.url?.elim .null fun url => .str url)

/--
The object that a summary is printed as.
-/
structure Summary.PrintedAs (s : Summary) (object : Json) : Prop where
  errors : object.member? "error" = some (.int (s.severities.count "error"))
  warnings : object.member? "warning" = some (.int (s.severities.count "warning"))
  total : object.member? "total" = some (.int s.total)
  rules : object.member? "by_rule" = some (.object (s.rules.map fun (rule, n) => (rule, .int n)))

/--
The object that the report on a file is printed as.
-/
structure FileReport.PrintedAs (r : FileReport) (object : Json) : Prop where
  file : object.member? "file" = some (.str r.file)
  ok : object.member? "ok" = some (.bool r.error?.isNone)
  error : object.member? "error" = some (r.error?.elim .null .str)
  items : ∃ items, object.member? "items" = some (.array items)
    ∧ List.Forall₂ Item.PrintedAs r.items items
  summary : ∃ summary, object.member? "summary" = some summary ∧ r.summary.PrintedAs summary

/--
The object that a report is printed as.
-/
structure PrintedAs (report : Report) (object : Json) : Prop where
  ok : object.member? "ok" = some (.bool true)
  results : ∃ results, object.member? "results" = some (.array results)
    ∧ List.Forall₂ FileReport.PrintedAs report.files results
  summary : ∃ summary, object.member? "summary" = some summary ∧ report.summary.PrintedAs summary

theorem Item.printedAs_toJson (i : Item) : i.PrintedAs i.toJson where
  severity := ⟨i.severity.name, rfl, by cases i.severity <;> decide⟩
  source := ⟨i.source.name, rfl, by cases i.source <;> decide⟩
  rule := congrArg some (Json.ofString?_eq i.rule?)
  line := congrArg some (Json.ofInt?_eq i.line?)
  message := rfl
  url := congrArg some (Json.ofString?_eq i.url?)

theorem Summary.fields_ofItems (items : List Item) :
    (ofItems items).fields =
      [("error", .count ((ofItems items).severities.count "error")),
       ("warning", .count ((ofItems items).severities.count "warning")),
       ("total", .count (ofItems items).total), ("by_rule", .byRule (ofItems items).rules)] := by
  simp [fields, severities_ofItems, Table.put, Tally.count, Table.get?]

theorem Summary.printedAs_toJson (items : List Item) :
    (ofItems items).PrintedAs (ofItems items).toJson := by
  rw [toJson, fields_ofItems]
  exact ⟨rfl, rfl, rfl, rfl⟩

theorem FileReport.printedAs_toJson (r : FileReport) : r.PrintedAs r.toJson where
  file := rfl
  ok := rfl
  error := congrArg some (Json.ofText?_eq r.error?)
  items := ⟨_, rfl, forall₂_map fun i _ => i.printedAs_toJson⟩
  summary := ⟨_, rfl, Summary.printedAs_toJson r.items⟩

theorem printedAs_toJson (report : Report) : report.PrintedAs report.toJson where
  ok := rfl
  results := ⟨_, rfl, forall₂_map fun r _ => r.printedAs_toJson⟩
  summary := ⟨_, rfl, Summary.printedAs_toJson report.items⟩

/--
How an item stands in a text: its line goes with the name of the file, if it has one.
-/
def Item.ShownAs (file : WideText) (i : Item) (entry : WideText) : Prop :=
  match i.line? with
  | some line => entry = file ++ ":" ++ toString line ++ " - " ++ i.message
  | none => entry = file ++ " - " ++ i.message

/--
The entries of a file: one for each item, or the error of a file that cannot be read.
-/
def FileReport.ShownAs (r : FileReport) (entries : List WideText) : Prop :=
  match r.error? with
  | some error => entries = [error]
  | none => List.Forall₂ (Item.ShownAs r.file) r.items entries

/--
The lines that a text ends with if there are that many findings.
-/
inductive Closes : Nat → List WideText → Prop where
  | none : Closes 0 ["No warning found. Cool!"]
  | one : Closes 1 ["", "Found 1 warning."]
  | many {n : Nat} (h : 2 ≤ n) : Closes n ["", "Found " ++ toString n ++ " warnings."]

theorem FileReport.shownAs_entries (r : FileReport) : r.ShownAs r.entries := by
  unfold FileReport.ShownAs FileReport.entries
  cases r.error? with
  | some error => rfl
  | none =>
    apply forall₂_map
    intro i _
    unfold Item.ShownAs FileReport.place
    cases i.line? <;> rfl

theorem closes_closing (n : Nat) : Closes n (closing n) := by
  match n with
  | 0 => exact .none
  | 1 => exact .one
  | n + 2 =>
    have hlast : closing (n + 2) =
        [WideText.ofString "", "Found " ++ toString (n + 2) ++ " warnings."] := by
      simp [closing, WideText.ext_iff]
    rw [hlast]
    exact .many (Nat.le_add_left 2 n)

/--
A text lists the entries of the files in their order, and ends with the total of the rules.
-/
theorem lines_eq {report : Report} (h : ∀ r ∈ report.files, r.IsFaithful) :
    ∃ (entries : List (List WideText)) (last : List WideText),
      List.Forall₂ FileReport.ShownAs report.files entries
      ∧ Closes report.summary.rules.total last
      ∧ report.lines = entries.flatten ++ last ++ [WideText.ofString "[timing] total: 0 ms."] := by
  refine ⟨report.files.map FileReport.entries, _, forall₂_map fun r _ => r.shownAs_entries,
    closes_closing _, ?_⟩
  rw [lines, findingCount_eq h, total_rules h, entries, List.flatMap_def]
  rfl

end Report

end MigrationLint
