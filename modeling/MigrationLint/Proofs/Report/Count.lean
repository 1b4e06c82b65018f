import Mathlib.Algebra.GroupWithZero.Nat
import MigrationLint.Proofs.List
import MigrationLint.Proofs.Report.Summary
import MigrationLint.Report.Basic

/-!
This module contains what reports count. All counts of a report come from its items, so the number
of diagnostics, the tally of the rules and the number at the end of a text are the same, and the
summary of a report adds up those of its files.
-/

namespace MigrationLint

namespace Report

namespace Item

def finding? : Item → Option Diagnostic
  | finding d => some d
  | _ => none

end Item

namespace Summary

theorem addAll_severities (severities : List Severity) (errors warnings : Nat) :
    Tally.addAll [("error", errors), ("warning", warnings)] (severities.map Severity.name) =
      [("error", errors + severities.count .error),
       ("warning", warnings + severities.count .warning)] := by
  induction severities generalizing errors warnings with
  | nil => rfl
  | cons severity severities ih =>
    rw [List.map_cons, Tally.addAll, List.foldl_cons]
    cases severity with
    | error =>
      refine (ih (errors + 1) warnings).trans ?_
      simp
      omega
    | warning =>
      refine (ih errors (warnings + 1)).trans ?_
      simp
      omega

theorem count_severities (severities : List Severity) :
    severities.count .error + severities.count .warning = severities.length := by
  induction severities with
  | nil => rfl
  | cons severity severities ih =>
    cases severity <;> simp <;> omega

/--
The summary of items has the two severities and no other ones.
-/
theorem severities_ofItems (items : List Item) :
    (ofItems items).severities =
      [("error", (items.map (·.severity)).count .error),
       ("warning", (items.map (·.severity)).count .warning)] := by
  have hadd := addAll_severities (items.map (·.severity)) 0 0
  simpa [ofItems, ofMarks, noSeverities, Function.comp_def, Item.mark, Mark.severity] using hadd

theorem total_ofItems (items : List Item) : (ofItems items).total = items.length := by
  have hcount := count_severities (items.map (·.severity))
  rw [List.length_map] at hcount
  rw [total, severities_ofItems]
  exact hcount

def ruleNames (items : List Item) : List String :=
  items.filterMap fun i => i.mark.rule

theorem rules_ofItems (items : List Item) :
    (ofItems items).rules = Tally.addAll [] (ruleNames items) := by
  rw [ofItems, ofMarks, List.filterMap_map]
  rfl

theorem count_severities_ofItems (items : List Item) (name : String) :
    (ofItems items).severities.count name = (items.map (·.mark.severity)).count name := by
  rw [ofItems, count_severities_ofMarks, List.count_eq_countP, List.countP_map, List.countP_map]
  rfl

theorem count_rules_ofItems (items : List Item) (name : String) :
    (ofItems items).rules.count name = (ruleNames items).count name := by
  rw [rules_ofItems, Tally.count_addAll]
  simp [Tally.count, Table.get?]

theorem mem_rules_ofItems (items : List Item) (name : String) :
    name ∈ Table.names (ofItems items).rules ↔ name ∈ ruleNames items := by
  rw [rules_ofItems, Tally.mem_names_addAll]
  simp [Table.names]

/--
A summary that adds up others, name by name.
-/
structure IsSum (s : Summary) (parts : List Summary) : Prop where
  severityNames : ∀ part ∈ s :: parts, Table.names part.severities = ["error", "warning"]
  severities : ∀ name, s.severities.count name = (parts.map (·.severities.count name)).sum
  total : s.total = (parts.map total).sum
  ruleNames : ∀ name, name ∈ Table.names s.rules ↔ ∃ part ∈ parts, name ∈ Table.names part.rules
  rules : ∀ name, s.rules.count name = (parts.map (·.rules.count name)).sum

theorem isSum_ofItems (files : List (List Item)) :
    (ofItems files.flatten).IsSum (files.map ofItems) := by
  constructor
  . intro part hpart
    obtain ⟨items, rfl⟩ : ∃ items, part = ofItems items := by
      rcases List.mem_cons.1 hpart with rfl | hpart
      . exact ⟨_, rfl⟩
      . obtain ⟨items, _, rfl⟩ := List.mem_map.1 hpart
        exact ⟨items, rfl⟩
    rw [severities_ofItems]
    rfl
  . intro name
    simp [count_severities_ofItems, List.map_flatten, List.count_flatten, Function.comp_def]
  . simp [total_ofItems, List.length_flatten, Function.comp_def]
  . intro name
    simp [mem_rules_ofItems, Summary.ruleNames, List.filterMap_flatten]
  . intro name
    simp [count_rules_ofItems, Summary.ruleNames, List.filterMap_flatten, List.count_flatten,
      Function.comp_def]

end Summary

/--
A report on a file whose findings are its diagnostics, all of them of a rule with a name. A file
that cannot be read has none.
-/
structure FileReport.IsFaithful (r : FileReport) : Prop where
  findings : r.items.filterMap Item.finding? = r.diagnostics
  named : ∀ d ∈ r.diagnostics, d.rule ≠ ""
  unread : r.isOk = false → r.diagnostics = []

namespace FileReport

variable {r : FileReport}

theorem isFaithful_ofError (file : WideText) (error : ReadError) :
    (ofError file error).IsFaithful :=
  ⟨rfl, by simp [ofError], fun _ => rfl⟩

theorem isFaithful_ofFaults (file : WideText) (lines : List Int) :
    (ofFaults file lines).IsFaithful := by
  refine ⟨?_, by simp [ofFaults], fun _ => rfl⟩
  simp [ofFaults, Item.ofFaults, Item.finding?]

theorem isFaithful_ofDiagnostics (file : WideText) {diagnostics : List Diagnostic}
    (h : ∀ d ∈ diagnostics, d.rule ≠ "") : (ofDiagnostics file diagnostics).IsFaithful := by
  refine ⟨?_, h, by simp [ofDiagnostics, isOk]⟩
  simp [ofDiagnostics, List.filterMap_map, Function.comp_def, Item.finding?]

theorem IsFaithful.ruleNames_eq (h : r.IsFaithful) :
    Summary.ruleNames r.items = r.diagnostics.map (·.rule) := by
  have hmark (i : Item) : i.mark.rule = (i.finding?.map (·.rule)).filter (· ≠ "") := by
    cases i <;> rfl
  have hnames : Summary.ruleNames r.items =
      r.diagnostics.filterMap fun d => (some d.rule).filter (· ≠ "") := by
    rw [← h.findings, List.filterMap_filterMap]
    apply List.filterMap_congr
    intro i _
    rw [hmark]
    cases i.finding? <;> rfl
  rw [hnames, ← List.filterMap_eq_map]
  apply List.filterMap_congr
  intro d hd
  simp [h.named d hd]

theorem length_findings (items : List Item) :
    (items.filter (·.source = .rule)).length = (items.filterMap Item.finding?).length := by
  induction items with
  | nil => rfl
  | cons item items ih =>
    cases item with
    | finding d => exact congrArg (· + 1) ih
    | _ => exact ih

theorem IsFaithful.findingCount_eq (h : r.IsFaithful) : r.findingCount = r.diagnostics.length := by
  unfold findingCount
  split
  . rw [length_findings, h.findings]
  . next hok => rw [h.unread (by simpa using hok), List.length_nil]

theorem IsFaithful.exists_rule_iff (h : r.IsFaithful) :
    (∃ i ∈ r.items, i.source = .rule) ↔ r.diagnostics ≠ [] := by
  rw [← List.length_pos_iff, ← h.findings, ← length_findings, List.length_pos_iff]
  simp

end FileReport

end Report

namespace Report

variable {report : Report}

theorem summary_isSum (report : Report) :
    report.summary.IsSum (report.files.map FileReport.summary) := by
  have hsum := Summary.isSum_ofItems (report.files.map (·.items))
  rw [List.map_map, ← List.flatMap_def] at hsum
  exact hsum

theorem ruleNames_items (h : ∀ r ∈ report.files, r.IsFaithful) :
    Summary.ruleNames report.items = report.diagnostics.map (·.rule) := by
  rw [items, diagnostics, Summary.ruleNames, List.filterMap_flatMap, List.map_flatMap]
  apply List.flatMap_congr
  exact fun r hr => (h r hr).ruleNames_eq

theorem total_rules (h : ∀ r ∈ report.files, r.IsFaithful) :
    report.summary.rules.total = report.diagnostics.length := by
  rw [summary, Summary.rules_ofItems, Tally.total_addAll, ruleNames_items h, List.length_map]
  exact Nat.zero_add _

theorem rules_eq_nil_iff (h : ∀ r ∈ report.files, r.IsFaithful) :
    report.summary.rules = [] ↔ report.diagnostics = [] := by
  constructor
  . intro hrules
    have htotal := total_rules h
    rw [hrules] at htotal
    exact List.eq_nil_of_length_eq_zero htotal.symm
  . intro hdiagnostics
    rw [summary, Summary.rules_ofItems, ruleNames_items h, hdiagnostics]
    rfl

theorem findingCount_eq (h : ∀ r ∈ report.files, r.IsFaithful) :
    report.findingCount = report.diagnostics.length := by
  obtain ⟨files, checks⟩ := report
  unfold findingCount diagnostics
  induction files with
  | nil => rfl
  | cons r files ih =>
    have hcount := (h r List.mem_cons_self).findingCount_eq
    have ih := ih fun s hs => h s (List.mem_cons_of_mem r hs)
    rw [List.foldr_cons, List.flatMap_cons, List.length_append, hcount, ih]

theorem status_eq_one_iff : report.status = 1 ↔ report.diagnostics ≠ [] := by
  rw [status]
  split <;> simp_all

theorem status_le (report : Report) : report.status ≤ 1 := by
  rw [status]
  split <;> simp

/--
The counts of a report agree with each other and with an exit status.
-/
structure IsConsistent (report : Report) (status : Nat) : Prop where
  status_le : status ≤ 1
  diagnostics : status = 1 ↔ ∃ r ∈ report.files, r.diagnostics ≠ []
  rules : status = 1 ↔ report.summary.rules ≠ []
  items : status = 1 ↔ ∃ r ∈ report.files, ∃ i ∈ r.items, i.source = .rule
  ruleTotal : report.summary.rules.total = (report.files.map (·.diagnostics.length)).sum
  fileTotal : ∀ r ∈ report.files, r.summary.total = r.items.length
  sum : report.summary.IsSum (report.files.map FileReport.summary)

theorem isConsistent_status (h : ∀ r ∈ report.files, r.IsFaithful) :
    report.IsConsistent report.status := by
  have hdiagnostics : report.diagnostics ≠ [] ↔ ∃ r ∈ report.files, r.diagnostics ≠ [] := by
    simp [Report.diagnostics, List.flatMap_eq_nil_iff]
  constructor
  . exact status_le report
  . rw [status_eq_one_iff, hdiagnostics]
  . rw [status_eq_one_iff, ne_eq, ne_eq, rules_eq_nil_iff h]
  . rw [status_eq_one_iff, hdiagnostics]
    apply exists_congr
    intro r
    exact and_congr_right fun hr => (h r hr).exists_rule_iff.symm
  . rw [total_rules h, Report.diagnostics, List.length_flatMap]
  . exact fun r _ => Summary.total_ofItems r.items
  . exact summary_isSum report

end Report

end MigrationLint
