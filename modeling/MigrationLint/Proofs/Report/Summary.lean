import Mathlib.Data.List.Nodup
import MigrationLint.Proofs.Report.Tally
import MigrationLint.Report.Summary

/-!
This module contains what a summary says about the items that it was made of. A summary is read as
the table it is listed as, since a severity can go by the name of the total or by that of the
rules. The numbers in this table only depend on how many items there are of each kind.
-/

namespace MigrationLint

namespace Report

namespace Summary

/--
Get the number under a key. It is zero if the key is not there or has no number.
-/
def numberAt (key : String) (fields : Table String Field) : Nat :=
  match Table.get? key fields with
  | some (.count n) => n
  | _ => 0

/--
Get the table of the rules.
-/
def rulesOf (fields : Table String Field) : Tally :=
  match Table.get? "by_rule" fields with
  | some (.byRule rules) => rules
  | _ => []

theorem get?_fields (s : Summary) (key : String) :
    Table.get? key s.fields =
      if key = "by_rule" then some (.byRule s.rules)
      else if key = "total" then some (.count s.total)
      else (Table.get? key s.severities).map .count := by
  rw [fields, Table.get?_put, Table.get?_put, Table.get?_map]

theorem rulesOf_fields (s : Summary) : rulesOf s.fields = s.rules := by
  simp [rulesOf, get?_fields]

theorem numberAt_total (s : Summary) : numberAt "total" s.fields = s.total := by
  simp [numberAt, get?_fields]

theorem numberAt_severity (s : Summary) {key : String} (htotal : key ≠ "total")
    (hrules : key ≠ "by_rule") : numberAt key s.fields = s.severities.count key := by
  rw [numberAt, get?_fields, if_neg hrules, if_neg htotal, Tally.count]
  cases Table.get? key s.severities <;> rfl

theorem mem_names_fields (s : Summary) (key : String) :
    key ∈ Table.names s.fields ↔
      key = "by_rule" ∨ key = "total" ∨ key ∈ Table.names s.severities := by
  rw [fields, Table.mem_names_put, Table.mem_names_put, Table.names_map]

theorem nodup_names_fields {s : Summary} (h : (Table.names s.severities).Nodup) :
    (Table.names s.fields).Nodup := by
  apply Table.nodup_names_put
  apply Table.nodup_names_put
  rwa [Table.names_map]

theorem count_noSeverities (name : String) : noSeverities.count name = 0 := by
  simp only [noSeverities, Tally.count, Table.get?]
  split
  . rfl
  . split <;> rfl

theorem count_severities_ofMarks (marks : List Mark) (name : String) :
    (ofMarks marks).severities.count name = marks.countP (·.severity = name) := by
  rw [ofMarks, Tally.count_addAll, count_noSeverities, Nat.zero_add, List.count_eq_countP,
    List.countP_map]
  rfl

theorem count_rules_ofMarks (marks : List Mark) (name : String) :
    (ofMarks marks).rules.count name = marks.countP (·.rule == some name) := by
  rw [ofMarks, Tally.count_addAll, List.count_filterMap]
  exact Nat.zero_add _

theorem total_ofMarks (marks : List Mark) :
    (ofMarks marks).total = marks.countP (·.severity ∈ ["error", "warning"]) := by
  rw [total, count_severities_ofMarks, count_severities_ofMarks]
  induction marks with
  | nil => rfl
  | cons m marks ih =>
    rw [List.countP_cons, List.countP_cons, List.countP_cons, ← ih]
    by_cases h : m.severity = "error"
    . simp [h]
      omega
    . simp [h]
      omega

theorem total_rules_ofMarks (marks : List Mark) :
    (ofMarks marks).rules.total = marks.countP (·.rule.isSome) := by
  rw [ofMarks, Tally.total_addAll, List.length_filterMap_eq_countP]
  exact Nat.zero_add _

theorem rule_eq_some_iff (m : Mark) (name : String) :
    m.rule = some name ↔ name ≠ "" ∧ m.rule? = some name := by
  rw [Mark.rule, Option.filter_eq_some_iff, and_comm, decide_eq_true_iff]

theorem isSome_rule_iff (m : Mark) : m.rule.isSome ↔ m.rule? ≠ none ∧ m.rule? ≠ some "" := by
  rw [Option.isSome_iff_exists]
  cases h : m.rule? <;> simp [rule_eq_some_iff, h]

/--
A table that counts items by severity and by rule, with no key twice. The total and the rules are no
severities.
-/
structure Counts (marks : List Mark) (fields : Table String Field) : Prop where
  keys : (Table.names fields).Nodup
    ∧ ∀ key, key ∈ Table.names fields ↔ key ∈ ["error", "warning", "total", "by_rule"]
      ∨ ∃ m ∈ marks, m.severity?.getD "warning" = key
  severity : ∀ name, name ≠ "total" → name ≠ "by_rule" →
    numberAt name fields = marks.countP (·.severity?.getD "warning" = name)
  total : numberAt "total" fields =
    marks.countP (·.severity?.getD "warning" ∈ ["error", "warning"])
  byRule : Table.get? "by_rule" fields = some (.byRule (rulesOf fields))
  ruleNames : (Table.names (rulesOf fields)).Nodup
    ∧ ∀ name, name ∈ Table.names (rulesOf fields) ↔ name ≠ "" ∧ ∃ m ∈ marks, m.rule? = some name
  rule : ∀ name, (rulesOf fields).count name =
    marks.countP fun m => name ≠ "" ∧ m.rule? = some name
  ruleTotal : (rulesOf fields).total = marks.countP fun m => m.rule? ≠ none ∧ m.rule? ≠ some ""

theorem counts_ofMarks (marks : List Mark) : Counts marks (ofMarks marks).fields := by
  constructor
  case keys =>
    constructor
    . apply nodup_names_fields
      exact Tally.nodup_names_addAll (by decide) _
    . intro key
      have hnone : Table.names noSeverities = ["error", "warning"] := rfl
      rw [mem_names_fields, ofMarks, Tally.mem_names_addAll, List.mem_map, hnone]
      simp only [List.mem_cons, List.not_mem_nil, Mark.severity]
      tauto
  case severity =>
    intro name htotal hrules
    rw [numberAt_severity _ htotal hrules, count_severities_ofMarks]
    rfl
  case total =>
    rw [numberAt_total, total_ofMarks]
    rfl
  case byRule =>
    rw [get?_fields, if_pos rfl, rulesOf_fields]
  case ruleNames =>
    rw [rulesOf_fields]
    constructor
    . exact Tally.nodup_names_addAll (by decide) _
    . intro name
      have hnone : name ∉ Table.names ([] : Tally) := List.not_mem_nil
      rw [ofMarks, Tally.mem_names_addAll, List.mem_filterMap]
      simp only [hnone, false_or, rule_eq_some_iff]
      tauto
  case rule =>
    intro name
    rw [rulesOf_fields, count_rules_ofMarks]
    simp only [beq_eq_decide, rule_eq_some_iff]
  case ruleTotal =>
    rw [rulesOf_fields, total_rules_ofMarks]
    apply List.countP_congr
    intro m _
    rw [isSome_rule_iff, decide_eq_true_iff]

/--
The item is one of those that the number under a key stands for.
-/
def isCountedAt (key : String) (m : Mark) : Bool :=
  if key = "by_rule" then false
  else if key = "total" then m.severity?.getD "warning" ∈ ["error", "warning"]
  else m.severity?.getD "warning" = key

theorem Counts.numberAt_eq {marks : List Mark} {fields : Table String Field}
    (h : Counts marks fields) (key : String) :
    numberAt key fields = marks.countP (isCountedAt key) := by
  unfold isCountedAt
  split
  . next hrules =>
    rw [hrules, numberAt, h.byRule]
    exact (congrFun List.countP_false marks).symm
  . next hrules =>
    split
    . next htotal => rw [htotal, h.total]
    . next htotal => rw [h.severity key htotal hrules]

/--
Summaries add up: those of two lists have the numbers of the whole list between them. The order of
the items does not matter, and each number says how many items there are of its kind.
-/
theorem fields_ofMarks (marks : List Mark) :
    Counts marks (ofMarks marks).fields
    ∧ (∀ others key, numberAt key (ofMarks (marks ++ others)).fields =
        numberAt key (ofMarks marks).fields + numberAt key (ofMarks others).fields)
    ∧ (∀ others name, (rulesOf (ofMarks (marks ++ others)).fields).count name =
        (rulesOf (ofMarks marks).fields).count name + (rulesOf (ofMarks others).fields).count name)
    ∧ ∀ others, marks.Perm others →
      (∀ key, numberAt key (ofMarks marks).fields = numberAt key (ofMarks others).fields)
      ∧ ∀ name, (rulesOf (ofMarks marks).fields).count name =
        (rulesOf (ofMarks others).fields).count name := by
  -- Every count is that of the items with a property, so it follows the list.
  have hnumber (marks : List Mark) := (counts_ofMarks marks).numberAt_eq
  have hrule (marks : List Mark) := (counts_ofMarks marks).rule
  refine ⟨counts_ofMarks marks, ?_, ?_, ?_⟩
  . intro others key
    rw [hnumber, hnumber, hnumber, List.countP_append]
  . intro others name
    rw [hrule, hrule, hrule, List.countP_append]
  . intro others hperm
    constructor
    . intro key
      rw [hnumber, hnumber, hperm.countP_eq]
    . intro name
      rw [hrule, hrule, hperm.countP_eq]

end Summary

end Report

end MigrationLint
