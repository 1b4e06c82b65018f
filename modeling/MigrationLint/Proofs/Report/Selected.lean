import MigrationLint.Proofs.Config.Selection
import MigrationLint.Proofs.FileTree.Sources
import MigrationLint.Proofs.Report.Batch
import MigrationLint.Proofs.Report.Count
import MigrationLint.Proofs.Rule.Independence
import MigrationLint.Proofs.Rule.Migration

/-!
This module contains engines whose rules were selected. They run over any converted file without an
error, and their diagnostics bear the name of the rule on seed data. So there is a report on every
file, and it is faithful.
-/

namespace MigrationLint

def Rule.IsSelectable : Rule → Prop
  | isolateSeedData _ => True
  | scripted _ => False

namespace Engine

variable {engine : Engine} {file : WideText} {t : ParseTree}

theorem isSelectable_of_rule? {name : String} {options : Options} {rule : Rule}
    (h : Selection.rule? name options = some rule) : rule.IsSelectable := by
  unfold Selection.rule? at h
  split at h
  . cases h
    exact trivial
  . cases h

theorem isSelectable_of_build {enabled : List String} {draft? : Option Config.Draft} {sink : Sink}
    (h : build enabled draft? sink = .ok engine) : ∀ rule ∈ engine.rules, rule.IsSelectable := by
  unfold build at h
  split at h
  . cases h
  . cases h
    intro rule hrule
    obtain ⟨name, _, hname⟩ := List.mem_filterMap.1 hrule
    exact isSelectable_of_rule? hname

/--
A diagnostic of a run bears the name of a rule of the engine.
-/
theorem rule_of_run {root : Node} {diagnostics : List Diagnostic}
    (h : (engine.run (some root) file).outcome = .ok diagnostics) {d : Diagnostic}
    (hd : d ∈ diagnostics) : ∃ rule ∈ engine.rules, d.rule = rule.identifier := by
  obtain ⟨_, emissions, rfl, hinterleaved⟩ := interleaved_of_run h
  obtain ⟨e, he, rfl⟩ := List.mem_map.1 hd
  obtain ⟨rule, hrule⟩ : ∃ rule, engine.rules[e.moment.rule]? = some rule :=
    ⟨_, List.getElem?_eq_getElem (hinterleaved.owned e he)⟩
  obtain ⟨run, _, hcourse, _⟩ := hinterleaved.own _ rule hrule
  have hrecorded := rule.recorded_course file root.nodes e.moment.rule
  rw [hcourse] at hrecorded
  exact ⟨rule, List.mem_of_getElem? hrule, (hrecorded.2.2 e (by simp [he])).1⟩

theorem single_succeeds {rule : Rule} (hrule : rule.IsSelectable) (file : WideText) (t : ParseTree)
    (locals : List String) :
    ∃ diagnostics,
      (single rule (Node.convert file locals none t) file).outcome = .ok diagnostics := by
  cases rule with
  | scripted script => cases hrule
  | isolateSeedData options =>
    by_cases hfile : "migration" ∈ Path.classify file
    . exact ⟨_, (run_migration options #[] hfile (sidesFit_nodes file t locals)).1⟩
    . exact ⟨_, (run_elsewhere options #[] hfile).1⟩

theorem run_succeeds (engine : Engine) (file : WideText)
    (hrules : ∀ rule ∈ engine.rules, rule.IsSelectable) (hroot : ¬ t.isTrivia) :
    ∃ diagnostics, (engine.run (Node.ofParseTree file t).1 file).outcome = .ok diagnostics := by
  rw [fst_ofParseTree hroot, run_succeeds_iff]
  exact fun rule hrule => single_succeeds (hrules rule hrule) file t t.localNames

theorem rule_of_run_selectable (hrules : ∀ rule ∈ engine.rules, rule.IsSelectable)
    (hroot : ¬ t.isTrivia) {diagnostics : List Diagnostic}
    (h : (engine.run (Node.ofParseTree file t).1 file).outcome = .ok diagnostics) :
    ∀ d ∈ diagnostics, d.rule = Rule.seedDataName := by
  rw [fst_ofParseTree hroot] at h
  intro d hd
  obtain ⟨rule, hrule, hname⟩ := rule_of_run h hd
  rw [hname]
  cases rule with
  | scripted script => cases hrules _ hrule
  | isolateSeedData options => rfl

section Reports

open Report

variable {system : FileSystem} {rules : List Rule}

/--
There is a faithful report on every file, whatever can be read of it.
-/
theorem reportOf_faithful (hrules : ∀ rule ∈ rules, rule.IsSelectable) (hparsed : system.IsParsed)
    (file : WideText) : ∃ r, reportOf rules system file = .ok r ∧ r.file = file ∧ r.IsFaithful := by
  unfold reportOf
  cases hread : system.readSource file with
  | error error =>
    rw [checkFile_of_error _ hread]
    exact ⟨_, rfl, rfl, FileReport.isFaithful_ofError file error⟩
  | ok source =>
    by_cases hfaults : source.parse.faultLines = []
    . have hroot := hparsed source (FileSystem.mem_sources_of_readSource hread)
      obtain ⟨diagnostics, houtcome⟩ := run_succeeds { rules } file hrules hroot
      obtain ⟨log, hcheck⟩ := checkFile_of_parse { rules } hread hfaults
      rw [hcheck, houtcome]
      refine ⟨_, rfl, rfl, FileReport.isFaithful_ofDiagnostics file fun d hd => ?_⟩
      rw [rule_of_run_selectable hrules hroot houtcome d hd]
      decide
    . obtain ⟨log, hcheck⟩ := checkFile_of_faults { rules } hread hfaults
      rw [hcheck]
      exact ⟨_, rfl, rfl, FileReport.isFaithful_ofFaults file _⟩

end Reports

end Engine

end MigrationLint
