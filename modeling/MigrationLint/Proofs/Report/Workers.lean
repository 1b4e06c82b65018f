import Mathlib.Data.List.Perm.Basic
import Mathlib.Logic.Relation
import MigrationLint.Proofs.Report.Batch

/-!
This module contains workers that check files side by side and share an engine. A worker takes the
next file and checks it with the engine as it finds it. When the check has ended, its diagnostics
reach the sink in one step, and those of other workers may have come in between. In whatever order
this happens, the reports are those of a single worker, and the sink gets one block for each file.
-/

namespace MigrationLint

namespace Engine

open Report

variable {engine : Engine} {system : FileSystem} {file : WideText} {files : List WideText}
variable {reports : List FileReport} {jobs : Nat}

def FileCheck.found (check : FileCheck) : List Diagnostic :=
  match check.outcome with
  | .ok report => report.diagnostics
  | .error _ => []

def foundIn (rules : List Rule) (system : FileSystem) (file : WideText) : List Diagnostic :=
  (({ rules } : Engine).checkFile system file).found

theorem FileCheck.found_of_outcome {check : FileCheck} {rules : List Rule}
    (h : check.outcome = reportOf rules system file) : check.found = foundIn rules system file := by
  unfold found foundIn
  rw [h]
  rfl

/--
A check reads nothing of the sink, and all that it changes is that the sink grows by what it found.
-/
theorem checkFile_engine (engine : Engine) (system : FileSystem) (file : WideText) :
    (engine.checkFile system file).engine =
      { engine with sink := engine.sink.extend (foundIn engine.rules system file) } := by
  rw [← FileCheck.found_of_outcome (checkFile_outcome engine system file)]
  unfold FileCheck.found
  cases hread : system.readSource file with
  | error error => simp [checkFile_of_error engine hread, FileReport.ofError, Sink.extend]
  | ok source =>
    by_cases hfaults : source.parse.faultLines = []
    . obtain ⟨log, hcheck⟩ := checkFile_of_parse engine hread hfaults
      rw [hcheck, run_engine, Result.returned]
      cases (engine.run (Node.ofParseTree file source.parse).1 file).outcome <;> rfl
    . obtain ⟨log, hcheck⟩ := checkFile_of_faults engine hread hfaults
      simp [hcheck, FileReport.ofFaults, Sink.extend]

theorem extend_extend (sink : Sink) (first second : List Diagnostic) :
    (sink.extend first).extend second = sink.extend (first ++ second) := by
  apply Array.ext'
  simp

theorem checkScheduled_engine (engine : Engine) (system : FileSystem)
    (schedule : List (Nat × WideText)) :
    (engine.checkScheduled system schedule).2.1 =
      { engine with
        sink := engine.sink.extend
          (schedule.flatMap fun s => foundIn engine.rules system s.2) } := by
  induction schedule generalizing engine with
  | nil => simp [checkScheduled, Sink.extend]
  | cons s schedule ih =>
    simp only [checkScheduled, ih, checkFile_engine, extend_extend, List.flatMap_cons]

/--
The report on a file: it tells of this file, and its diagnostics are what a run of the engine
returns, or none if there is no run.
-/
structure ReportsOn (engine : Engine) (system : FileSystem) (file : WideText) (r : FileReport) :
    Prop where
  outcome : (engine.checkFile system file).outcome = .ok r
  file_eq : r.file = file
  emitted : ∀ source, system.readSource file = .ok source → source.parse.faultLines = [] →
    (engine.run (Node.ofParseTree file source.parse).1 file).outcome = .ok r.diagnostics
  silent : (∀ source, system.readSource file = .ok source → source.parse.faultLines ≠ []) →
    r.diagnostics = []

theorem file_of_outcome {r : FileReport} (h : (engine.checkFile system file).outcome = .ok r) :
    r.file = file := by
  cases hread : system.readSource file with
  | error error =>
    rw [checkFile_of_error engine hread] at h
    cases h
    rfl
  | ok source =>
    by_cases hfaults : source.parse.faultLines = []
    . rw [(outcome_of_parse hread hfaults h).2]
      rfl
    . obtain ⟨log, hcheck⟩ := checkFile_of_faults engine hread hfaults
      rw [hcheck] at h
      cases h
      rfl

theorem reportsOn_of_outcome {r : FileReport}
    (h : (engine.checkFile system file).outcome = .ok r) : engine.ReportsOn system file r := by
  have hparse (source : SourceFile) (hread : system.readSource file = .ok source)
      (hfaults : source.parse.faultLines = []) := (outcome_of_parse hread hfaults h).1
  refine ⟨h, file_of_outcome h, hparse, ?_⟩
  intro hnone
  have hshape := hasShape_shapeOf h
  cases hcase : shapeOf system file with
  | unread =>
    rw [hcase] at hshape
    exact hshape.diagnostics
  | broken lines =>
    rw [hcase] at hshape
    exact hshape.diagnostics
  | checked =>
    obtain ⟨source, hread, hfaults⟩ := shapeOf_eq_checked_iff.1 hcase
    exact absurd hfaults (hnone source hread)

/--
The sink has got one block of diagnostics for every report, in some order of the reports.
-/
def FilledBy (before : Sink) (reports : List FileReport) (after : Sink) : Prop :=
  ∃ order : List FileReport, order.Perm reports
    ∧ after.toList = before.toList ++ order.flatMap (·.diagnostics)

theorem FilledBy.perm {before first second : Sink} (h₁ : FilledBy before reports first)
    (h₂ : FilledBy before reports second) : first.toList.Perm second.toList := by
  obtain ⟨order, horder, hfirst⟩ := h₁
  obtain ⟨other, hother, hsecond⟩ := h₂
  rw [hfirst, hsecond]
  exact ((horder.trans hother.symm).flatMap_right _).append_left _

theorem foundIn_of_report {rules : List Rule} {r : FileReport}
    (h : reportOf rules system file = .ok r) : foundIn rules system file = r.diagnostics := by
  rw [reportOf] at h
  rw [foundIn, FileCheck.found, h]

theorem flatMap_foundIn {rules : List Rule}
    (h : List.Forall₂ (fun file r => reportOf rules system file = .ok r) files reports) :
    files.flatMap (foundIn rules system) = reports.flatMap (·.diagnostics) := by
  induction h with
  | nil => rfl
  | cons hreport _ ih =>
    rw [List.flatMap_cons, List.flatMap_cons, ih, foundIn_of_report hreport]

theorem filledBy_of_schedule {rules : List Rule} {sink : Sink} {schedule : List (Nat × WideText)}
    (hschedule : schedule.Perm (scheduleInTurn files))
    (h : List.Forall₂ (fun file r => reportOf rules system file = .ok r) files reports) :
    FilledBy sink reports (sink.extend (schedule.flatMap fun s => foundIn rules system s.2)) := by
  have hfiles : (schedule.map (·.2)).Perm files := by
    rw [← scheduleInTurn_map_snd files]
    exact hschedule.map _
  -- Reports that are taken in the order of the schedule are those in the order of the files.
  obtain ⟨order, horder, hperm⟩ := List.perm_comp_forall₂ hfiles h
  refine ⟨order, hperm, ?_⟩
  rw [Sink.toList_extend, ← flatMap_foundIn horder, List.flatMap_map]

theorem checkInTurn_engine (h : ∀ file ∈ files, ∃ r, reportOf engine.rules system file = .ok r) :
    (engine.checkInTurn system files).engine =
      { engine with sink := engine.sink.extend (files.flatMap (foundIn engine.rules system)) } := by
  induction files generalizing engine with
  | nil => simp [checkInTurn, Sink.extend]
  | cons file files ih =>
    obtain ⟨r, hr⟩ := h file List.mem_cons_self
    have hrest : ∀ other ∈ files,
        ∃ r, reportOf (engine.checkFile system file).engine.rules system other = .ok r := by
      rw [checkFile_rules]
      exact fun other hother => h other (List.mem_cons_of_mem file hother)
    rw [checkInTurn]
    simp only [checkFile_outcome, hr, ih hrest]
    simp only [checkFile_engine, extend_extend, List.flatMap_cons]

/--
A check that a worker has begun: the position of its file, the file, and what will come of it.
-/
structure Task where
  position : Nat
  file : WideText
  check : FileCheck

/--
The state of workers: the files that no worker has come to, the tasks under way, the tasks that have
ended in the order of their ends, and the engine that the workers share.
-/
structure Workers where
  waiting : List (Nat × WideText)
  busy : List Task
  ended : List Task
  engine : Engine

namespace Workers

def start (engine : Engine) (files : List WideText) : Workers :=
  ⟨scheduleInTurn files, [], [], engine⟩

/--
A step of one of the workers: it takes the next file and checks it with the engine as it is now, or
its task ends and the sink, as it is then, is extended by what was found.
-/
inductive Step (system : FileSystem) (jobs : Nat) : Workers → Workers → Prop where
  | take {position : Nat} {file : WideText} {waiting : List (Nat × WideText)}
      {busy ended : List Task}
      {engine : Engine} (hfree : busy.length < jobs) :
      Step system jobs ⟨(position, file) :: waiting, busy, ended, engine⟩
        ⟨waiting, ⟨position, file, engine.checkFile system file⟩ :: busy, ended, engine⟩
  | finish {task : Task} {waiting : List (Nat × WideText)} {before after ended : List Task}
      {engine : Engine} :
      Step system jobs ⟨waiting, before ++ task :: after, ended, engine⟩
        ⟨waiting, before ++ after, ended ++ [task],
          { engine with sink := engine.sink.extend task.check.found }⟩

def Reaches (system : FileSystem) (jobs : Nat) : Workers → Workers → Prop :=
  Relation.ReflTransGen (Step system jobs)

def IsDone (w : Workers) : Prop := w.waiting = [] ∧ w.busy = []

/--
List the files in the order in which their diagnostics reached the sink.
-/
def schedule (w : Workers) : List (Nat × WideText) :=
  w.ended.map fun task => (task.position, task.file)

def outcomes (w : Workers) : List (Nat × Except RuleError FileReport) :=
  w.ended.map fun task => (task.position, task.check.outcome)

/--
What every state of workers has in common with the state in which they started: no file is lost or
taken twice, no task depends on when it was begun, and the sink has grown by what the ended tasks
found.
-/
structure Consistent (engine : Engine) (system : FileSystem) (files : List WideText) (w : Workers) :
    Prop where
  files : (w.waiting ++ (w.busy ++ w.ended).map fun task => (task.position, task.file)).Perm
    (scheduleInTurn files)
  checks : ∀ task ∈ w.busy ++ w.ended, task.check.outcome = reportOf engine.rules system task.file
  engine : w.engine =
    { engine with sink := engine.sink.extend (w.ended.flatMap fun task => task.check.found) }

variable {w next : Workers}

theorem consistent_start (engine : Engine) (system : FileSystem) (files : List WideText) :
    (start engine files).Consistent engine system files := by
  constructor
  . simp [start]
  . simp [start]
  . simp [start, Sink.extend]

theorem perm_finish {task : Task} {before after ended : List Task} :
    ((before ++ after) ++ (ended ++ [task])).Perm ((before ++ task :: after) ++ ended) :=
  calc (before ++ after) ++ (ended ++ [task])
    _ = ((before ++ after) ++ ended) ++ [task] := (List.append_assoc _ _ _).symm
    List.Perm _ (task :: ((before ++ after) ++ ended)) := List.perm_append_singleton _ _
    List.Perm _ ((before ++ task :: after) ++ ended) := List.perm_middle.symm.append_right ended

theorem Consistent.step (h : w.Consistent engine system files) (hstep : Step system jobs w next) :
    next.Consistent engine system files := by
  obtain ⟨hfiles, hchecks, hengine⟩ := h
  cases hstep with
  | take hfree =>
    refine ⟨List.perm_middle.trans hfiles, ?_, hengine⟩
    intro task htask
    rcases List.mem_cons.1 htask with rfl | htask
    -- The sink has changed since the start, but the rules are the same.
    . have hrules : _ = engine.rules := congrArg (·.rules) hengine
      simp only at hrules
      rw [checkFile_outcome, hrules]
    . exact hchecks task htask
  | finish =>
    refine ⟨((perm_finish.map _).append_left _).trans hfiles, ?_, ?_⟩
    . exact fun other hother => hchecks other (perm_finish.mem_iff.1 hother)
    . simp only at hengine
      simp [hengine, extend_extend]

theorem consistent_of_reaches (h : Reaches system jobs (start engine files) w) :
    w.Consistent engine system files := by
  induction h with
  | refl => exact consistent_start engine system files
  | tail _ hstep ih => exact ih.step hstep

/--
When all files are done, workers have done what one worker does who comes to the files in the order
in which their diagnostics reached the sink.
-/
theorem Consistent.checkScheduled_eq (h : w.Consistent engine system files) (hdone : w.IsDone) :
    w.schedule.Perm (scheduleInTurn files)
      ∧ (engine.checkScheduled system w.schedule).1 = w.outcomes
      ∧ (engine.checkScheduled system w.schedule).2.1 = w.engine := by
  obtain ⟨hfiles, hchecks, hengine⟩ := h
  rw [hdone.1, hdone.2] at hfiles
  rw [hdone.2] at hchecks
  refine ⟨hfiles, ?_, ?_⟩
  . rw [checkScheduled_outcomes, schedule, outcomes, List.map_map]
    apply List.map_congr_left
    intro task htask
    rw [hchecks task htask]
    rfl
  . rw [checkScheduled_engine, hengine, schedule, List.flatMap_map]
    congr 2
    apply List.flatMap_congr
    intro task htask
    exact (FileCheck.found_of_outcome (hchecks task htask)).symm

theorem exists_step (hjobs : 1 ≤ jobs) (h : ¬ w.IsDone) : ∃ next, Step system jobs w next := by
  obtain ⟨waiting, busy, ended, engine⟩ := w
  cases busy with
  | cons task busy => exact ⟨_, @Step.finish system jobs task waiting [] busy ended engine⟩
  | nil =>
    cases waiting with
    | nil => exact absurd ⟨rfl, rfl⟩ h
    | cons s waiting => exact ⟨_, Step.take hjobs⟩

def remaining (w : Workers) : Nat := 2 * w.waiting.length + w.busy.length

theorem Step.remaining_lt (h : Step system jobs w next) : next.remaining < w.remaining := by
  cases h with
  | take hfree =>
    simp only [remaining, List.length_cons]
    omega
  | finish =>
    simp only [remaining, List.length_append, List.length_cons]
    omega

end Workers

/--
Checks by any number of workers, in any order in which their diagnostics reach the sink, lead to the
same reports as checks in turn, provided that no check fails: one report for each file, in the order
of the files. The sink ends with what it held before and one block for every report, so that no
order loses or repeats a diagnostic. Workers never get stuck before all files are done, and they
cannot go on for ever.
-/
theorem checkFiles_anyOrder (engine : Engine) (system : FileSystem) (files : List WideText)
    (jobs : Nat) (hjobs : 1 ≤ jobs)
    (hchecks : ∀ file ∈ files, ∀ error, (engine.checkFile system file).outcome ≠ .error error) :
    ∃ reports : List FileReport,
      List.Forall₂ (engine.ReportsOn system) files reports
      ∧ (engine.checkInTurn system files).outcome = .ok reports
      ∧ (engine.checkInTurn system files).engine.sink.toList =
          engine.sink.toList ++ reports.flatMap (·.diagnostics)
      ∧ (∀ schedule, schedule.Perm (scheduleInTurn files) →
          (engine.checkFiles system files jobs schedule).outcome = .ok reports
          ∧ FilledBy engine.sink reports (engine.checkFiles system files jobs schedule).engine.sink)
      ∧ (∀ w, Workers.Reaches system jobs (Workers.start engine files) w → w.IsDone →
          inOrder w.outcomes = .ok reports ∧ FilledBy engine.sink reports w.engine.sink)
      ∧ (∀ w, ¬ w.IsDone → ∃ next, Workers.Step system jobs w next)
      ∧ (WellFounded fun next w => Workers.Step system jobs w next)
      ∧ (∀ first second, FilledBy engine.sink reports first → FilledBy engine.sink reports second →
          first.toList.Perm second.toList) := by
  have hsucceeds : ∀ file ∈ files, ∃ r, reportOf engine.rules system file = .ok r := by
    intro file hfile
    cases houtcome : (engine.checkFile system file).outcome with
    | error error => exact absurd houtcome (hchecks file hfile error)
    | ok r => exact ⟨r, by rw [← checkFile_outcome, houtcome]⟩
  obtain ⟨reports, hreports⟩ := exists_forall₂ hsucceeds
  have hmapM := mapM_eq_ok_iff.2 hreports
  have hinTurn : (engine.checkInTurn system files).outcome = .ok reports := by
    rw [checkInTurn_outcome, hmapM]
  have hsink : (engine.checkInTurn system files).engine.sink.toList =
      engine.sink.toList ++ reports.flatMap (·.diagnostics) := by
    rw [checkInTurn_engine hsucceeds, flatMap_foundIn hreports, Sink.toList_extend]
  refine ⟨reports, ?_, hinTurn, hsink, ?_, ?_, fun _ => Workers.exists_step hjobs, ?_,
    fun _ _ => FilledBy.perm⟩
  . apply hreports.imp
    intro file r hr
    exact reportsOn_of_outcome (by rw [checkFile_outcome, hr])
  . intro schedule hschedule
    refine ⟨by rw [checkFiles_outcome engine system jobs hschedule, hmapM], ?_⟩
    unfold checkFiles
    split
    . exact ⟨reports, List.Perm.refl reports, hsink⟩
    . simp only [checkScheduled_engine]
      exact filledBy_of_schedule hschedule hreports
  . intro w hreaches hdone
    obtain ⟨hschedule, houtcomes, hengine⟩ :=
      (Workers.consistent_of_reaches hreaches).checkScheduled_eq hdone
    rw [← houtcomes, ← hengine, inOrder_checkScheduled engine system hschedule, hmapM,
      checkScheduled_engine]
    exact ⟨rfl, filledBy_of_schedule hschedule hreports⟩
  . exact Subrelation.wf Workers.Step.remaining_lt (measure Workers.remaining).wf

def bareCreate : ParseTree :=
  .node ⟨"program", true, false, false, some "create", 0, none⟩
    [.node ⟨"identifier", true, false, false, some "create", 0, none⟩ []]

def twoMigrations : FileSystem where
  root := .directory "" [.directory "db" [.directory "migrate" [
    .file "1_roles.rb" ⟨true, .empty, bareCreate⟩, .file "2_users.rb" ⟨true, .empty, bareCreate⟩]]]
  working := []

/--
Two workers take a migration each, and the one that took the second file ends first.
-/
theorem checkFiles_twoMigrations :
    let engine : Engine := { rules := [.isolateSeedData []] }
    let first : WideText := "db/migrate/1_roles.rb"
    let second : WideText := "db/migrate/2_users.rb"
    let report (file : WideText) := FileReport.ofDiagnostics file
      [⟨"IsolateSeedDataCheck", "isolate seed data", ⟨file, 1⟩⟩]
    let task (position : Nat) (file : WideText) : Task :=
      ⟨position, file, engine.checkFile twoMigrations file⟩
    let halfway : Engine :=
      { engine with sink := engine.sink.extend (task 1 second).check.found }
    let last : Workers := ⟨[], [], [task 1 second, task 0 first],
      { halfway with sink := halfway.sink.extend (task 0 first).check.found }⟩
    Workers.Reaches twoMigrations 2 (Workers.start engine [first, second]) last
      ∧ last.IsDone
      ∧ inOrder last.outcomes = .ok [report first, report second]
      ∧ last.engine.sink.toList = (report second).diagnostics ++ (report first).diagnostics
      ∧ FilledBy #[] [report first, report second] last.engine.sink
      ∧ (engine.checkFiles twoMigrations [first, second] 2 [(1, second), (0, first)]).outcome =
          .ok [report first, report second] := by
  intro engine first second report task halfway last
  have hreport : ∀ file ∈ [first, second],
      (engine.checkFile twoMigrations file).outcome = .ok (report file) := by
    decide +kernel
  have hchecks : ∀ file ∈ [first, second], ∀ error,
      (engine.checkFile twoMigrations file).outcome ≠ .error error := by
    intro file hfile error
    simp [hreport file hfile]
  have hreaches : Workers.Reaches twoMigrations 2 (Workers.start engine [first, second]) last :=
    .tail (.tail (.tail (.tail .refl (.take (by decide))) (.take (by decide)))
      (@Workers.Step.finish twoMigrations 2 (task 1 second) [] [] [task 0 first] [] engine))
      (@Workers.Step.finish twoMigrations 2 (task 0 first) [] [] [] [task 1 second] halfway)
  obtain ⟨reports, hreports, hinTurn, _, hschedules, hworkers, _⟩ :=
    checkFiles_anyOrder engine twoMigrations [first, second] 2 (by decide) hchecks
  have hturn : (engine.checkInTurn twoMigrations [first, second]).outcome =
      .ok [report first, report second] := by
    decide +kernel
  cases hinTurn.symm.trans hturn
  obtain ⟨hordered, hfilled⟩ := hworkers last hreaches ⟨rfl, rfl⟩
  refine ⟨hreaches, ⟨rfl, rfl⟩, hordered, ?_, hfilled, (hschedules _ (List.Perm.swap _ _ _)).1⟩
  decide +kernel

end Engine

end MigrationLint
