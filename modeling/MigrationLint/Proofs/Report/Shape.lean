import MigrationLint.Proofs.List
import MigrationLint.Proofs.ParseTree.Faults
import MigrationLint.Proofs.Rule.Engine
import MigrationLint.Report.OfFiles

/-!
This module contains the shapes of the reports on files. A report tells of a file that cannot be
read, of a file with syntax errors that was not shown to the rules, or of what the rules found, and
no report is a mixture of these.
-/

namespace MigrationLint

namespace Report

/--
What a report tells of: a file that cannot be read, the lines of syntax errors, or diagnostics.
-/
inductive Shape where
  | unread
  | broken (lines : List Int)
  | checked
  deriving DecidableEq, Repr

structure Item.Shows (item : Item) (d : Diagnostic) : Prop where
  severity : item.severity = .warning
  source : item.source = .rule
  rule : item.rule? = some d.rule
  line : item.line? = some d.location.line
  message : item.message = d.message

namespace FileReport

structure IsUnread (r : FileReport) : Prop where
  ok : r.isOk = false
  item : ∃ item, r.items = [item] ∧ item.severity = .error ∧ item.source = .runtime
    ∧ r.error? = some item.message
  diagnostics : r.diagnostics = []

structure IsBroken (r : FileReport) (lines : List Int) : Prop where
  ok : r.isOk = true
  faulty : lines ≠ []
  ascending : lines.Pairwise (· < ·)
  items : r.items.map (fun item => (item.severity, item.source, item.line?)) =
    lines.map (fun line => (.error, .parser, some line)) ++ [(.warning, .runtime, lines.head?)]
  diagnostics : r.diagnostics = []

structure IsChecked (r : FileReport) : Prop where
  ok : r.isOk = true
  items : List.Forall₂ Item.Shows r.items r.diagnostics

def HasShape (r : FileReport) : Shape → Prop
  | .unread => r.IsUnread
  | .broken lines => r.IsBroken lines
  | .checked => r.IsChecked

variable {r : FileReport} {file : WideText} {lines : List Int}

theorem isUnread_ofError (file : WideText) (error : ReadError) : (ofError file error).IsUnread :=
  ⟨rfl, ⟨_, rfl, rfl, rfl, rfl⟩, rfl⟩

theorem isBroken_ofFaults (hlines : lines ≠ []) (hascending : lines.Pairwise (· < ·)) :
    (ofFaults file lines).IsBroken lines := by
  refine ⟨rfl, hlines, hascending, ?_, rfl⟩
  simp [ofFaults, Item.ofFaults, Item.severity, Item.source, Item.line?, Function.comp_def]

theorem isChecked_ofDiagnostics (file : WideText) (diagnostics : List Diagnostic) :
    (ofDiagnostics file diagnostics).IsChecked := by
  refine ⟨rfl, List.forall₂_map_left_iff.2 (List.forall₂_same.2 ?_)⟩
  exact fun d _ => ⟨rfl, rfl, rfl, rfl, rfl⟩

theorem IsUnread.not_ok (h : r.IsUnread) : ¬ r.isOk := by
  rw [h.ok]
  exact Bool.false_ne_true

theorem IsBroken.lines_eq {others : List Int} (h : r.IsBroken lines) (h' : r.IsBroken others) :
    lines = others := by
  have hitems := List.append_inj_left' (h.items.symm.trans h'.items) rfl
  refine List.map_injective_iff.2 ?_ hitems
  intro line other heq
  simpa using heq

theorem IsBroken.not_isChecked (h : r.IsBroken lines) : ¬ r.IsChecked := by
  intro hchecked
  have hitems := hchecked.items
  rw [h.diagnostics, List.forall₂_nil_right_iff] at hitems
  -- There is at least the note that the checks were skipped.
  have hnote := h.items
  rw [hitems] at hnote
  simp at hnote

theorem shape_unique {first second : Shape} (h₁ : r.HasShape first) (h₂ : r.HasShape second) :
    first = second := by
  cases first with
  | unread =>
    cases second with
    | unread => rfl
    | broken lines => exact absurd h₂.ok h₁.not_ok
    | checked => exact absurd h₂.ok h₁.not_ok
  | broken lines =>
    cases second with
    | unread => exact absurd h₁.ok h₂.not_ok
    | broken others => rw [h₁.lines_eq h₂]
    | checked => exact absurd h₂ h₁.not_isChecked
  | checked =>
    cases second with
    | unread => exact absurd h₁.ok h₂.not_ok
    | broken lines => exact absurd h₁ h₂.not_isChecked
    | checked => rfl

end FileReport

end Report

namespace Engine

open Report

variable {engine : Engine} {system : FileSystem} {file : WideText} {record : FileReport}

/--
The shape that a file calls for, by what can be read of it.
-/
def shapeOf (system : FileSystem) (file : WideText) : Shape :=
  match system.readSource file with
  | .error _ => .unread
  | .ok source =>
    if source.parse.faultLines = [] then .checked
    else .broken (source.parse.faultLines.map Int.ofNat)

theorem shapeOf_eq_unread_iff :
    shapeOf system file = .unread ↔ ∃ error, system.readSource file = .error error := by
  unfold shapeOf
  cases system.readSource file with
  | error error => simp
  | ok source => by_cases h : source.parse.faultLines = [] <;> simp [h]

theorem shapeOf_eq_broken_iff {lines : List Int} :
    shapeOf system file = .broken lines ↔ ∃ source, system.readSource file = .ok source
      ∧ source.parse.faultLines ≠ [] ∧ source.parse.faultLines.map Int.ofNat = lines := by
  unfold shapeOf
  cases system.readSource file with
  | error error => simp
  | ok source => by_cases h : source.parse.faultLines = [] <;> simp [h]

theorem shapeOf_eq_checked_iff :
    shapeOf system file = .checked ↔ ∃ source, system.readSource file = .ok source
      ∧ source.parse.faultLines = [] := by
  unfold shapeOf
  cases system.readSource file with
  | error error => simp
  | ok source => by_cases h : source.parse.faultLines = [] <;> simp [h]

theorem checkFile_of_error (engine : Engine) {error : ReadError}
    (h : system.readSource file = .error error) :
    engine.checkFile system file =
      ⟨.ok (.ofError file error), [], engine, [unreadLine file error]⟩ := by
  rw [checkFile, h]

theorem checkFile_of_faults (engine : Engine) {source : SourceFile}
    (h : system.readSource file = .ok source) (hfaults : source.parse.faultLines ≠ []) :
    ∃ log, engine.checkFile system file =
      ⟨.ok (.ofFaults file (source.parse.faultLines.map Int.ofNat)), [], engine, log⟩ := by
  have hempty : (source.parse.faultLines.map Int.ofNat).isEmpty = false := by
    simpa using hfaults
  rw [checkFile, h]
  simp only [checkParse, hempty, Bool.false_eq_true, ↓reduceIte]
  exact ⟨_, rfl⟩

theorem checkFile_of_parse (engine : Engine) {source : SourceFile}
    (h : system.readSource file = .ok source) (hfaults : source.parse.faultLines = []) :
    let result := engine.run (Node.ofParseTree file source.parse).1 file
    ∃ log, engine.checkFile system file =
      ⟨result.outcome.map (.ofDiagnostics file), result.runs, result.engine, log⟩ := by
  rw [checkFile, h]
  simp only [checkParse, hfaults, List.map_nil, List.isEmpty_nil, ↓reduceIte]
  exact ⟨_, rfl⟩

theorem outcome_of_parse {source : SourceFile} (h : system.readSource file = .ok source)
    (hfaults : source.parse.faultLines = [])
    (hrecord : (engine.checkFile system file).outcome = .ok record) :
    (engine.run (Node.ofParseTree file source.parse).1 file).outcome = .ok record.diagnostics
      ∧ record = .ofDiagnostics file record.diagnostics := by
  obtain ⟨log, hcheck⟩ := checkFile_of_parse engine h hfaults
  rw [hcheck] at hrecord
  cases houtcome : (engine.run (Node.ofParseTree file source.parse).1 file).outcome with
  | error error =>
    rw [houtcome] at hrecord
    cases hrecord
  | ok diagnostics =>
    rw [houtcome] at hrecord
    cases hrecord
    exact ⟨rfl, rfl⟩

theorem hasShape_shapeOf (h : (engine.checkFile system file).outcome = .ok record) :
    record.HasShape (shapeOf system file) := by
  cases hread : system.readSource file with
  | error error =>
    rw [shapeOf_eq_unread_iff.2 ⟨error, hread⟩]
    rw [checkFile_of_error engine hread] at h
    cases h
    exact FileReport.isUnread_ofError file error
  | ok source =>
    by_cases hfaults : source.parse.faultLines = []
    . rw [shapeOf_eq_checked_iff.2 ⟨source, hread, hfaults⟩,
        (outcome_of_parse hread hfaults h).2]
      exact FileReport.isChecked_ofDiagnostics file record.diagnostics
    . rw [shapeOf_eq_broken_iff.2 ⟨source, hread, hfaults, rfl⟩]
      obtain ⟨log, hcheck⟩ := checkFile_of_faults engine hread hfaults
      rw [hcheck] at h
      cases h
      apply FileReport.isBroken_ofFaults
      . simpa using hfaults
      . exact List.pairwise_map.2 (source.parse.pairwise_faultLines.imp Int.ofNat_lt.2)

theorem hasShape_iff (h : (engine.checkFile system file).outcome = .ok record) {shape : Shape} :
    record.HasShape shape ↔ shapeOf system file = shape := by
  constructor
  . exact FileReport.shape_unique (hasShape_shapeOf h)
  . rintro rfl
    exact hasShape_shapeOf h

def brokenParse : ParseTree :=
  .node ⟨"program", true, false, true, some "role = 1\nend end", 0, none⟩
    [.node ⟨"assignment", true, false, false, some "role = 1", 0, none⟩ [],
     .node ⟨"ERROR", true, false, true, some "end end", 1, none⟩
      [.node ⟨"end", false, true, true, some "", 2, none⟩ []]]

def brokenSystem : FileSystem :=
  ⟨.directory "" [.file "roles.rb" ⟨true, .empty, brokenParse⟩], []⟩

end Engine

end MigrationLint
