import MigrationLint.Proofs.Config.Load
import MigrationLint.Proofs.Table

/-!
This module contains the configurations that the values of documents stand for. The entries of a
mapping are checks with their options, unless one of them has no options or no name; the first such
entry tells. Names that are written alike come together: they stand where the first of them stood,
with the options of the last.
-/

namespace MigrationLint

namespace Config

/--
A value in a document gives options: null gives none, and a mapping gives its entries. The document
itself is a mapping.
-/
inductive GivesOptions (document : Options) : Yaml.Value → Options → Prop where
  | null : GivesOptions document (.scalar .null) []
  | mapping (entries : Options) : GivesOptions document (.mapping entries) entries
  | enclosing : GivesOptions document .enclosing document

/--
An entry of a document is a check with its options.
-/
structure IsCheck (document : Options) (entry : Entry) (check : WideText × Options) : Prop where
  name : entry.1.render? = some check.1
  options : GivesOptions document entry.2 check.2

/--
A configuration that holds checks in the order of their first entries, each with its last options.
-/
structure Collects (checks : List (WideText × Options)) (config : Config) : Prop where
  names : Table.names config = (checks.map (·.1)).eraseDups
  last : ∀ early name options late, checks = early ++ (name, options) :: late →
    name ∉ late.map (·.1) → Table.get? name config = some options
  distinct : (checks.map (·.1)).Nodup → config = checks

variable {source : WideText} {document : Options} {entry : Entry}

theorem optionsOf?_eq_some_iff {value : Yaml.Value} {options : Options} :
    optionsOf? document value = some options ↔ GivesOptions document value options := by
  constructor
  . intro h
    unfold optionsOf? at h
    split at h
    . cases h
      exact .null
    . cases h
      exact .mapping _
    . cases h
      exact .enclosing
    . cases h
  . intro h
    cases h <;> rfl

theorem collects_putAll (checks : List (WideText × Options)) :
    Collects checks (Table.putAll [] checks) := by
  constructor
  . rw [Table.names_putAll]
    simp [Table.names]
  . rintro early name options late rfl hlate
    exact Table.get?_putAll_last [] hlate
  . intro hdistinct
    exact Table.putAll_of_nodup hdistinct

theorem addEntry_check {check : WideText × Options} (h : IsCheck document entry check)
    (config : Config) :
    addEntry source document config entry = .ok (Table.put check.1 check.2 config) := by
  rw [addEntry, h.name, optionsOf?_eq_some_iff.2 h.options]

theorem foldlM_checks {entries : List Entry} {checks : List (WideText × Options)}
    (h : List.Forall₂ (IsCheck document) entries checks) (config : Config) :
    entries.foldlM (addEntry source document) config = .ok (Table.putAll config checks) := by
  induction h generalizing config with
  | nil => rfl
  | cons hcheck _ ih =>
    rw [List.foldlM_cons, addEntry_check hcheck]
    exact ih _

theorem ofValue_checks {entries : Options} {checks : List (WideText × Options)}
    (h : List.Forall₂ (IsCheck entries) entries checks) :
    ofValue source (.mapping entries) = .ok (Table.putAll [] checks) :=
  foldlM_checks h []

example :
    let entries : Options := [(.bool true, .mapping [(.null, .enclosing)]),
      (.str "B", .scalar .null), (.str "True", .scalar .null)]
    ofValue noFile (.mapping entries) = .ok [("True", []), ("B", [])] := by
  rfl

theorem IsCheck.not_rejects {check : WideText × Options} (h : IsCheck document entry check)
    (error : LoadError) : ¬ RejectsEntry source document entry error := by
  intro hrejects
  cases hrejects with
  | longName hname => cases hname.symm.trans h.name
  | badOptions _ hoptions => cases hoptions.symm.trans (optionsOf?_eq_some_iff.2 h.options)

/--
An entry that is no check and has a name has no options.
-/
theorem optionsOf?_eq_none {name : WideText} (hname : entry.1.render? = some name)
    (h : ¬ ∃ check, IsCheck document entry check) : optionsOf? document entry.2 = none := by
  rw [Option.eq_none_iff_forall_ne_some]
  intro options hoptions
  exact h ⟨(name, options), hname, optionsOf?_eq_some_iff.1 hoptions⟩

/--
What the value of a document stands for: null for no checks, and a mapping for the checks that it
collects, unless one of its entries is none. The first entry without options is refused by its name.
Only a name that is a number with too many digits breaks the reading off.
-/
theorem ofValue_document (source : WideText) (value : Yaml.Value) :
    (∀ (reader : Yaml.Reader) text, reader text = .ok value →
      parse reader text source = ofValue source value)
    ∧ (value = .scalar .null → ofValue source value = .ok [])
    ∧ (value ≠ .scalar .null → (∀ entries, value ≠ .mapping entries) →
      ofValue source value = .error (.config (.noMapping source)))
    ∧ ∀ entries, value = .mapping entries →
      (∃ checks config, List.Forall₂ (IsCheck entries) entries checks ∧ Collects checks config
        ∧ ofValue source value = .ok config)
      ∨ (∃ early entry late checks name, entries = early ++ entry :: late
        ∧ List.Forall₂ (IsCheck entries) early checks
        ∧ entry.1.render? = some name ∧ (∀ options, ¬ GivesOptions entries entry.2 options)
        ∧ ofValue source value = .error (.config (.badOptions name source)))
      ∨ (∃ early entry late checks, entries = early ++ entry :: late
        ∧ List.Forall₂ (IsCheck entries) early checks
        ∧ entry.1.render? = none ∧ ofValue source value = .error .longName) := by
  refine ⟨?_, ?_, ?_, ?_⟩
  . intro reader text htext
    rw [parse, htext]
  . rintro rfl
    rfl
  . intro hnull hmapping
    exact (ofValue_eq_error_iff value).2 (.noMapping hnull hmapping)
  . rintro entries rfl
    rcases forall_or_exists_first (fun e => ∃ check, IsCheck entries e check) entries with
      hall | ⟨early, entry, late, hentries, hearly, hentry⟩
    . obtain ⟨checks, hchecks⟩ := exists_forall₂ hall
      exact .inl ⟨checks, _, hchecks, collects_putAll checks, ofValue_checks hchecks⟩
    . obtain ⟨checks, hchecks⟩ := exists_forall₂ hearly
      have hkept : ∀ e ∈ early, ∀ other, ¬ RejectsEntry source entries e other := by
        intro e he other
        obtain ⟨check, hcheck⟩ := hearly e he
        exact hcheck.not_rejects other
      cases hname : entry.1.render? with
      | none =>
        have hrejects := RejectsValue.entry hentries hkept (.longName hname)
        exact .inr (.inr ⟨early, entry, late, checks, hentries, hchecks, hname,
          (ofValue_eq_error_iff _).2 hrejects⟩)
      | some name =>
        have hnone := optionsOf?_eq_none hname hentry
        have hrejects := RejectsValue.entry hentries hkept (.badOptions hname hnone)
        refine .inr (.inl ⟨early, entry, late, checks, name, hentries, hchecks, hname, ?_,
          (ofValue_eq_error_iff _).2 hrejects⟩)
        intro options hoptions
        exact hentry ⟨(name, options), hname, hoptions⟩

/--
A check whose name is a number of more digits than are written.
-/
def longEntry : Entry :=
  (.int (Nat.pow 16 3572), .mapping [])

theorem ofValue_longEntry :
    longEntry.1.render? = none ∧ GivesOptions [longEntry] longEntry.2 []
      ∧ ofValue "c.yml" (.mapping [longEntry]) = .error .longName := by
  have hname : longEntry.1.render? = none := by decide +kernel
  refine ⟨hname, .mapping [], ?_⟩
  obtain ⟨_, _, _, hmapping⟩ := ofValue_document "c.yml" (.mapping [longEntry])
  rcases hmapping [longEntry] rfl with
    ⟨checks, config, hchecks, _, _⟩ | ⟨early, entry, late, checks, name, hentries, _, hsome, _, _⟩
      | ⟨early, entry, late, checks, hentries, _, _, hresult⟩
  . obtain ⟨check, _, hcheck⟩ := exists_of_forall₂ hchecks (List.mem_singleton_self longEntry)
    cases hname.symm.trans hcheck.name
  . have hentry : entry ∈ [longEntry] := by
      rw [hentries]
      exact List.mem_append_right early List.mem_cons_self
    cases List.mem_singleton.1 hentry
    cases hname.symm.trans hsome
  . exact hresult

end Config

end MigrationLint
