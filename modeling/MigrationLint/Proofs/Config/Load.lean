import MigrationLint.Config.Basic
import MigrationLint.Proofs.List

/-!
This module contains the errors of the loading of a configuration. The loading goes through
stages: the path, the bytes, the value of the document and its entries. Every stage has reasons of
its own to reject what it is given, and the loading fails exactly if one of them does.
-/

namespace MigrationLint

namespace Config

abbrev Entry := Yaml.Scalar × Yaml.Value

/--
Why an entry of a document is not the name of a check with its options.
-/
inductive RejectsEntry (source : WideText) (document : Options) (entry : Entry) :
    LoadError → Prop where
  | longName (hname : entry.1.render? = none) : RejectsEntry source document entry .longName
  | badOptions {name : WideText} (hname : entry.1.render? = some name)
      (hoptions : optionsOf? document entry.2 = none) :
      RejectsEntry source document entry (.config (.badOptions name source))

/--
Why the value of a document is no configuration. The first entry that is rejected tells.
-/
inductive RejectsValue (source : WideText) : Yaml.Value → LoadError → Prop where
  | noMapping {value : Yaml.Value} (hnull : value ≠ .scalar .null)
      (hmapping : ∀ entries, value ≠ .mapping entries) :
      RejectsValue source value (.config (.noMapping source))
  | entry {entries early late : Options} {entry : Entry} {error : LoadError}
      (hentries : entries = early ++ entry :: late)
      (hearly : ∀ e ∈ early, ∀ other, ¬ RejectsEntry source entries e other)
      (hentry : RejectsEntry source entries entry error) :
      RejectsValue source (.mapping entries) error

/--
Why a text is no configuration, as a reader of documents finds out.
-/
inductive RejectsText (reader : Yaml.Reader) (text : String) (source : WideText) :
    LoadError → Prop where
  | malformed (h : reader text = .error .malformed) :
      RejectsText reader text source (.config (.noDocument source))
  | fault {fault : Yaml.Fault} (hfault : fault ≠ .malformed) (h : reader text = .error fault) :
      RejectsText reader text source (.document fault)
  | value {value : Yaml.Value} {error : LoadError} (hvalue : reader text = .ok value)
      (h : RejectsValue source value error) : RejectsText reader text source error

/--
Why what a path leads to is no configuration.
-/
inductive Rejects (reader : Yaml.Reader) (system : FileSystem) (path : WideText) :
    LoadError → Prop where
  | nullInPath (h : system.openFile path = .error .nullInPath) :
      Rejects reader system path .nullInPath
  | unencodablePath (h : system.openFile path = .error .unencodable) :
      Rejects reader system path .unencodablePath
  | unreadable {error : AccessError} (hnull : error ≠ .nullInPath)
      (hencodable : error ≠ .unencodable) (h : system.openFile path = .error error) :
      Rejects reader system path (.config (.unreadable path error))
  | undecodable {file : SourceFile} (hfile : system.openFile path = .ok file)
      (h : Utf8.decode? file.bytes = none) : Rejects reader system path .undecodable
  | text {file : SourceFile} {text : String} {error : LoadError}
      (hfile : system.openFile path = .ok file) (htext : Utf8.decode? file.bytes = some text)
      (h : RejectsText reader (String.ofList (Lines.normalize text.toList)) path error) :
      Rejects reader system path error

/--
Get the path of the configuration to load, if there is one.
-/
def pathOf (system : FileSystem) (path? : Option WideText) : Option WideText :=
  match path? with
  | some path => some path
  | none => if system.isFileAt defaultPath then some defaultPath else none

variable {reader : Yaml.Reader} {system : FileSystem} {path source : WideText} {text : String}
  {error : LoadError}

theorem addEntry_eq_error_iff (document : Options) (config : Config) (entry : Entry) :
    addEntry source document config entry = .error error ↔
      RejectsEntry source document entry error := by
  unfold addEntry
  constructor
  . intro h
    split at h
    . next hname =>
      cases h
      exact .longName hname
    . next hname hoptions =>
      cases h
      exact .badOptions hname hoptions
    . cases h
  . intro h
    cases h with
    | longName hname => rw [hname]
    | badOptions hname hoptions => rw [hname, hoptions]

theorem ofValue_eq_error_iff (value : Yaml.Value) :
    ofValue source value = .error error ↔ RejectsValue source value error := by
  unfold ofValue
  split
  . constructor
    . intro h
      cases h
    . intro h
      cases h with
      | noMapping hnull _ => exact absurd rfl hnull
  . next entries =>
    rw [foldlM_eq_error_iff fun config entry _ => addEntry_eq_error_iff entries config entry]
    constructor
    . rintro ⟨early, entry, late, hentries, hearly, hentry⟩
      exact .entry hentries hearly hentry
    . intro h
      cases h with
      | noMapping _ hmapping => exact absurd rfl (hmapping entries)
      | entry hentries hearly hentry => exact ⟨_, _, _, hentries, hearly, hentry⟩
  . next hnull hmapping =>
    constructor
    . intro h
      cases h
      exact .noMapping hnull hmapping
    . intro h
      cases h with
      | noMapping => rfl
      | entry => exact absurd rfl (hmapping _)

theorem parse_eq_error_iff :
    parse reader text source = .error error ↔ RejectsText reader text source error := by
  unfold parse
  constructor
  . intro h
    split at h
    . next hvalue =>
      cases h
      exact .malformed hvalue
    . next hfault hvalue =>
      cases h
      exact .fault hfault hvalue
    . next hvalue => exact .value hvalue ((ofValue_eq_error_iff _).1 h)
  . intro h
    cases h with
    | malformed hvalue => rw [hvalue]
    | fault hfault hvalue =>
      rw [hvalue]
      split <;> simp_all
    | value hvalue h =>
      rw [hvalue]
      exact (ofValue_eq_error_iff _).2 h

/--
The reasons for which nothing can be read from a path are those of the stages.
-/
theorem read_eq_error_iff :
    read reader system path = .error error ↔ Rejects reader system path error := by
  unfold read
  constructor
  . intro h
    split at h
    . next hopen =>
      cases h
      exact .nullInPath hopen
    . next hopen =>
      cases h
      exact .unencodablePath hopen
    . next hnull hencodable hopen =>
      cases h
      exact .unreadable hnull hencodable hopen
    . next hfile =>
      split at h
      . next htext =>
        cases h
        exact .undecodable hfile htext
      . next htext => exact .text hfile htext (parse_eq_error_iff.1 h)
  . intro h
    cases h with
    | nullInPath hopen => rw [hopen]
    | unencodablePath hopen => rw [hopen]
    | unreadable hnull hencodable hopen =>
      rw [hopen]
      split <;> simp_all
    | undecodable hfile htext => simp only [hfile, htext]
    | text hfile htext h =>
      simp only [hfile, htext]
      exact parse_eq_error_iff.2 h

theorem load_eq (reader : Yaml.Reader) (system : FileSystem) (path? : Option WideText) :
    load reader system path? =
      match pathOf system path? with
      | some path => (read reader system path).map some
      | none => .ok none := by
  cases path? with
  | some path => rfl
  | none =>
    unfold load pathOf
    by_cases h : system.isFileAt defaultPath <;> simp [h]

theorem load_eq_error_iff {path? : Option WideText} :
    load reader system path? = .error error ↔
      ∃ path, pathOf system path? = some path ∧ Rejects reader system path error := by
  rw [load_eq]
  cases pathOf system path? with
  | none => simp
  | some path =>
    simp only [Option.some.injEq, exists_eq_left', ← read_eq_error_iff]
    cases read reader system path <;> simp [Except.map]

end Config

end MigrationLint
