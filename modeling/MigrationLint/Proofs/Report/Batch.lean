import Mathlib.Data.List.Nodup
import MigrationLint.Proofs.Report.Shape

/-!
This module contains the outcomes of checks of several files. What is reported on a file depends on
the file and on the rules of the engine alone. So the reports are the same for any number of
workers, and for any order in which the workers come to the files.
-/

namespace MigrationLint

namespace Engine

open Report

variable {engine : Engine} {system : FileSystem} {file : WideText}

def reportOf (rules : List Rule) (system : FileSystem) (file : WideText) :
    Except RuleError FileReport :=
  (({ rules } : Engine).checkFile system file).outcome

theorem checkFile_outcome (engine : Engine) (system : FileSystem) (file : WideText) :
    (engine.checkFile system file).outcome = reportOf engine.rules system file := by
  unfold reportOf checkFile
  cases system.readSource file with
  | error error => rfl
  | ok source =>
    dsimp only [checkParse]
    split
    . rw [run_outcome]
    . rfl

theorem checkFile_rules (engine : Engine) (system : FileSystem) (file : WideText) :
    (engine.checkFile system file).engine.rules = engine.rules := by
  unfold checkFile
  cases system.readSource file with
  | error error => rfl
  | ok source =>
    dsimp only [checkParse]
    split
    . rw [run_engine]
    . rfl

theorem checkInTurn_outcome (engine : Engine) (system : FileSystem) (files : List WideText) :
    (engine.checkInTurn system files).outcome = files.mapM (reportOf engine.rules system) := by
  induction files generalizing engine with
  | nil => rfl
  | cons file files ih =>
    rw [List.mapM_cons, checkInTurn, checkFile_outcome]
    cases reportOf engine.rules system file with
    | error error => rfl
    | ok report =>
      simp only [ih, checkFile_rules]
      cases files.mapM (reportOf engine.rules system) <;> rfl

theorem checkScheduled_outcomes (engine : Engine) (system : FileSystem)
    (schedule : List (Nat × WideText)) :
    (engine.checkScheduled system schedule).1 =
      schedule.map fun s => (s.1, reportOf engine.rules system s.2) := by
  induction schedule generalizing engine with
  | nil => rfl
  | cons s schedule ih => simp only [checkScheduled, List.map_cons, ih, checkFile_outcome,
      checkFile_rules]

theorem scheduleInTurn_pairwise (files : List WideText) :
    (scheduleInTurn files).Pairwise fun s t => s.1 < t.1 :=
  List.pairwise_map.2 (pairwise_zipIdx files 0)

theorem scheduleInTurn_map_snd (files : List WideText) :
    (scheduleInTurn files).map (·.2) = files := by
  rw [scheduleInTurn, List.map_map]
  exact List.zipIdx_map_fst 0 files

theorem mapM_scheduleInTurn {α ε : Type} (f : WideText → Except ε α) (files : List WideText) :
    (scheduleInTurn files).mapM (fun s => f s.2) = files.mapM f := by
  conv_rhs => rw [← scheduleInTurn_map_snd files, List.mapM_map]
  rfl

/--
Outcomes are put in the order of their positions, whatever order they come in.
-/
theorem inOrder_of_perm {outcomes sorted : List (Nat × Except RuleError FileReport)}
    (hperm : outcomes.Perm sorted) (hsorted : sorted.Pairwise fun s t => s.1 < t.1) :
    inOrder outcomes = sorted.mapM (·.2) := by
  have hmerge := (List.mergeSort_perm outcomes fun s t => decide (s.1 ≤ t.1)).trans hperm
  have hpositions : (sorted.map (·.1)).Nodup :=
    List.pairwise_map.2 (hsorted.imp Nat.ne_of_lt)
  rw [inOrder]
  congr 1
  apply List.Perm.eq_of_pairwise _ (List.pairwise_mergeSort _ _ outcomes)
    (hsorted.imp fun h => decide_eq_true (Nat.le_of_lt h)) hmerge
  . intro s t hs ht hst hts
    apply List.inj_on_of_nodup_map hpositions (hmerge.mem_iff.1 hs) ht
    exact Nat.le_antisymm (of_decide_eq_true hst) (of_decide_eq_true hts)
  . intro r s t hrs hst
    exact decide_eq_true (Nat.le_trans (of_decide_eq_true hrs) (of_decide_eq_true hst))
  . intro s t
    simp [Nat.le_total]

theorem inOrder_checkScheduled (engine : Engine) (system : FileSystem) {files : List WideText}
    {schedule : List (Nat × WideText)} (h : schedule.Perm (scheduleInTurn files)) :
    inOrder (engine.checkScheduled system schedule).1 =
      files.mapM (reportOf engine.rules system) := by
  rw [checkScheduled_outcomes,
    inOrder_of_perm (h.map _) (List.pairwise_map.2 (scheduleInTurn_pairwise files)),
    List.mapM_map]
  exact mapM_scheduleInTurn (reportOf engine.rules system) files

theorem checkFiles_outcome (engine : Engine) (system : FileSystem) {files : List WideText}
    (jobs : Nat) {schedule : List (Nat × WideText)} (h : schedule.Perm (scheduleInTurn files)) :
    (engine.checkFiles system files jobs schedule).outcome =
      files.mapM (reportOf engine.rules system) := by
  unfold checkFiles
  split
  . exact checkInTurn_outcome engine system files
  . exact inOrder_checkScheduled engine system h

end Engine

end MigrationLint
