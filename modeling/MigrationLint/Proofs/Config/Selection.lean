import MigrationLint.Config.Selection
import MigrationLint.Proofs.Table
import MigrationLint.Proofs.Text.Wide

/-!
This module contains the selection of checks by a configuration, and the engine that is built for
it. A name without a check is refused whatever is enabled. Else the selected names are those of the
configuration in its order, or all names, as far as they are enabled, and every one of them gives
one rule with its own options.
-/

namespace MigrationLint

namespace Selection

open Config

/--
No check goes by a name.
-/
def IsUnknown (name : WideText) : Prop :=
  ∀ check ∈ allChecks, WideText.ofString check ≠ name

instance : DecidablePred IsUnknown := by
  unfold IsUnknown
  infer_instance

/--
The names of a draft without a check, in the order of their code points.
-/
structure ListsUnknown (draft : Draft) (names : List WideText) : Prop where
  perm : names.Perm ((Table.names draft).filter fun name => IsUnknown name)
  ascending : names.Pairwise fun s t => s.codes ≤ t.codes

/--
The names that are selected. A list of enabled names that is not empty narrows them down.
-/
inductive Selects (enabled : List String) : Option Draft → List String → Prop where
  | all {checks : List String} (hperm : checks.Perm allChecks)
      (hascending : checks.Pairwise (· ≤ ·)) :
      Selects enabled none (checks.filter fun check => enabled = [] ∨ check ∈ enabled)
  | named {draft : Draft} {names : List String}
      (hnames : names.map WideText.ofString = (Table.names draft).filter fun name =>
        enabled = [] ∨ name ∈ enabled.map WideText.ofString) :
      Selects enabled (some draft) names

/--
Get the options that a draft gives for a name; null and no entry give none.
-/
def optionsIn (draft? : Option Draft) (name : String) : Options :=
  match draft?.bind (Table.get? (WideText.ofString name)) with
  | some (some options) => options
  | _ => []

/--
A rule that was made for a name.
-/
structure Makes (draft? : Option Draft) (name : String) (rule : Rule) : Prop where
  identifier : rule.identifier = name
  options : rule.options = optionsIn draft? name

variable {enabled : List String} {draft? : Option Draft} {name : WideText}

theorem check?_eq_none_iff : check? name = none ↔ IsUnknown name := by
  simp [check?, IsUnknown, List.find?_eq_none]

theorem check?_eq_some {check : String} (h : check? name = some check) :
    check ∈ allChecks ∧ WideText.ofString check = name :=
  ⟨List.mem_of_find?_eq_some h, by simpa using List.find?_some h⟩

theorem isEnabled_eq (enabled : List String) :
    isEnabled enabled = fun check => decide (enabled = [] ∨ check ∈ enabled) := by
  funext check
  cases enabled <;> simp [isEnabled]

theorem isEnabled_congr {others : List String} (h : ∀ check, check ∈ others ↔ check ∈ enabled) :
    isEnabled others = isEnabled enabled := by
  have hempty : others = [] ↔ enabled = [] := by
    simp only [List.eq_nil_iff_forall_not_mem, h]
  simp only [isEnabled_eq, h, hempty]

theorem selected_congr {others : List String} (h : ∀ check, check ∈ others ↔ check ∈ enabled)
    (draft? : Option Draft) : selected others draft? = selected enabled draft? := by
  simp only [selected, isEnabled_congr h]

theorem optionsFor_eq (draft? : Option Draft) (check : String) :
    optionsFor draft? check = optionsIn draft? check := by
  cases draft? with
  | none => rfl
  | some draft =>
    simp only [optionsFor, optionsIn, Option.getD_some, Option.bind_some]
    cases Table.get? (WideText.ofString check) draft with
    | none => rfl
    | some options? => cases options? <;> rfl

/--
The checks of known names bear these names.
-/
theorem map_filterMap_check? {names : List WideText} (h : ∀ name ∈ names, ¬ IsUnknown name) :
    (names.filterMap check?).map WideText.ofString = names := by
  induction names with
  | nil => rfl
  | cons name names ih =>
    obtain ⟨hname, hnames⟩ := List.forall_mem_cons.1 h
    obtain ⟨check, hcheck⟩ := Option.ne_none_iff_exists'.1 (mt check?_eq_none_iff.1 hname)
    rw [List.filterMap_cons_some hcheck, List.map_cons, ih hnames, (check?_eq_some hcheck).2]

theorem unknown_eq (draft : Draft) :
    ((Table.names draft).filter fun name => (check? name).isNone) =
      (Table.names draft).filter fun name => IsUnknown name := by
  apply List.filter_congr
  intro name _
  rw [Bool.eq_iff_iff, Option.isNone_iff_eq_none, check?_eq_none_iff, decide_eq_true_iff]

theorem selected_unknown (enabled : List String) {draft : Draft}
    (h : ∃ name ∈ Table.names draft, IsUnknown name) :
    ∃ names, ListsUnknown draft names
      ∧ selected enabled (some draft) =
        .error (.unknownChecks names (sortNames allChecks)) := by
  have hne : ((Table.names draft).filter fun name => IsUnknown name).isEmpty = false := by
    obtain ⟨name, hmem, hunknown⟩ := h
    simpa using ⟨name, hmem, hunknown⟩
  refine ⟨_, ⟨WideText.perm_sort _, WideText.pairwise_sort _⟩, ?_⟩
  rw [selected, unknown_eq, hne]
  rfl

theorem selects_selected (enabled : List String)
    (h : ∀ draft, draft? = some draft → ∀ name ∈ Table.names draft, ¬ IsUnknown name) :
    ∃ names, selected enabled draft? = .ok names ∧ Selects enabled draft? names
      ∧ ∀ name ∈ names, name ∈ allChecks := by
  cases draft? with
  | none =>
    refine ⟨_, rfl, ?_, ?_⟩
    . rw [isEnabled_eq]
      exact .all (List.mergeSort_perm _ _) (pairwise_mergeSort_key id allChecks)
    . intro name hname
      exact (List.mergeSort_perm _ _).mem_iff.1 (List.mem_of_mem_filter hname)
  | some draft =>
    have hknown := h draft rfl
    have hempty : (Table.names draft).filter (fun name => IsUnknown name) = [] := by
      simpa [List.filter_eq_nil_iff] using hknown
    refine ⟨((Table.names draft).filterMap check?).filter (isEnabled enabled), ?_, ?_, ?_⟩
    . rw [selected, unknown_eq, hempty]
      rfl
    . apply Selects.named
      conv_rhs => rw [← map_filterMap_check? hknown, List.filter_map]
      congr 1
      apply List.filter_congr
      intro check _
      rw [isEnabled_eq]
      simp [WideText.ofString_inj]
    . intro name hname
      obtain ⟨_, _, hcheck⟩ := List.mem_filterMap.1 (List.mem_of_mem_filter hname)
      exact (check?_eq_some hcheck).1

theorem rule?_of_mem {check : String} (h : check ∈ allChecks) (options : Options) :
    ∃ rule, rule? check options = some rule ∧ rule.identifier = check ∧ rule.options = options := by
  cases List.mem_singleton.1 h
  exact ⟨.isolateSeedData options, rfl, rfl, rfl⟩

theorem makes_rules {names : List String} (h : ∀ name ∈ names, name ∈ allChecks) :
    List.Forall₂ (Makes draft?) names
      (names.filterMap fun name => rule? name (optionsFor draft? name)) := by
  apply forall₂_filterMap
  intro name hname
  obtain ⟨rule, hrule, hidentifier, hoptions⟩ := rule?_of_mem (h name hname) _
  exact ⟨rule, hrule, hidentifier, by rw [hoptions, optionsFor_eq]⟩

theorem Selects.mem_draft {draft : Draft} {names : List String}
    (h : Selects enabled (some draft) names) {check : String} (hcheck : check ∈ names) :
    WideText.ofString check ∈ Table.names draft := by
  cases h with
  | named hnames =>
    have hmem := List.mem_map_of_mem (f := WideText.ofString) hcheck
    rw [hnames] at hmem
    exact List.mem_of_mem_filter hmem

end Selection

namespace Engine

open Config Selection

theorem build_eq_error_iff {enabled : List String} {draft? : Option Draft} {sink : Sink}
    {error : ConfigError} :
    build enabled draft? sink = .error error ↔ selected enabled draft? = .error error := by
  unfold build
  cases selected enabled draft? <;> simp

end Engine

end MigrationLint
