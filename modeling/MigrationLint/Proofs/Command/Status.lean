import MigrationLint.Command.Check
import MigrationLint.ParseTree.RowText
import MigrationLint.Proofs.Config.Load
import MigrationLint.Proofs.Report.Json
import MigrationLint.Proofs.Report.Selected
import MigrationLint.Yaml.Value.OfGraph

/-!
This module contains the ends of commands. A command is refused, or it breaks off because of an
error of its configuration that is not handled, or it reports on its files. If the stream for its
output cannot encode all of it, a report as a text may break off as well, but not one as JSON.
-/

namespace MigrationLint

namespace Command

variable {reader : Yaml.Reader} {system : FileSystem} {args : List WideText}

/--
Every line ends with a line break.
-/
def IsLines (t : WideText) (lines : List WideText) : Prop :=
  t.codes = lines.flatMap fun line => line.codes ++ ['\n'.toNat]

theorem isLines_unlines (lines : List WideText) : IsLines (unlines lines) lines := rfl

/--
The outcome of a command that is refused: the last of the statuses and one error, which is a member
of an object or the one line of the other stream.
-/
inductive IsRefusal (error : UsageError) (outcome : Outcome) : Format → Prop where
  | json {object : Report.Json} {spelled : String} (hstatus : outcome.status = .ok 2)
      (hok : object.member? "ok" = some (.bool false))
      (herror : object.member? "error" = some (.str error.message))
      (hspelled : object.Spells spelled)
      (hstdout : IsLines outcome.stdout [WideText.ofString spelled])
      (hstderr : outcome.stderr = WideText.ofString "") : IsRefusal error outcome .json
  | text (hstatus : outcome.status = .ok 2) (hstdout : outcome.stdout = WideText.ofString "")
      (hstderr : IsLines outcome.stderr [error.message]) : IsRefusal error outcome .text

theorem isRefusal_refuse (error : UsageError) (format : Format) :
    IsRefusal error (refuse error format) format := by
  cases format with
  | json => exact .json rfl rfl rfl (Report.Json.spells_render _) rfl rfl
  | text =>
    refine .text rfl rfl ?_
    simp [IsLines, refuse]

/--
Why a command is refused: its arguments are no settings, its configuration is rejected, or the
configuration names unknown checks.
-/
inductive Refuses (reader : Yaml.Reader) (system : FileSystem) (args : List WideText) :
    UsageError → Prop where
  | settings {error : UsageError} (h : Settings.ofArgs (dropSwitches args) = .error error) :
      Refuses reader system args error
  | config {settings : Settings} {path : WideText} {error : ConfigError}
      (hsettings : Settings.ofArgs (dropSwitches args) = .ok settings)
      (hpath : Config.pathOf system settings.config? = some path)
      (h : Config.Rejects reader system path (.config error)) :
      Refuses reader system args (.config error)
  | selection {settings : Settings} {config? : Option Config} {error : ConfigError}
      (hsettings : Settings.ofArgs (dropSwitches args) = .ok settings)
      (hconfig : Config.load reader system settings.config? = .ok config?)
      (h : Selection.selected settings.enabled (config?.map Config.toDraft) = .error error) :
      Refuses reader system args (.config error)

/--
A command breaks off if its configuration is rejected, but not with an error of the configuration.
-/
def Breaks (reader : Yaml.Reader) (system : FileSystem) (args : List WideText)
    (error : LoadError) : Prop :=
  (∀ e, error ≠ .config e) ∧ ∃ settings path, Settings.ofArgs (dropSwitches args) = .ok settings
    ∧ Config.pathOf system settings.config? = some path ∧ Config.Rejects reader system path error

/--
A command gets past its arguments and its configuration, with these settings and this engine.
-/
def Reaches (reader : Yaml.Reader) (system : FileSystem) (args : List WideText)
    (settings : Settings) (engine : Engine) : Prop :=
  Settings.ofArgs (dropSwitches args) = .ok settings ∧ ∃ config?,
    Config.load reader system settings.config? = .ok config?
      ∧ Engine.build settings.enabled (config?.map Config.toDraft) #[] = .ok engine

theorem check_of_reaches {settings : Settings} {engine : Engine}
    (h : Reaches reader system args settings engine) :
    check reader system args = runEngine system (Switches.ofArgs args) settings engine := by
  obtain ⟨hsettings, config?, hconfig, hengine⟩ := h
  simp only [check, hsettings, runSettings, hconfig, hengine]

theorem check_of_refuses {error : UsageError} (h : Refuses reader system args error) :
    check reader system args = refuse error (Switches.ofArgs args).format := by
  cases h with
  | settings h => simp only [check, h]
  | config hsettings hpath h =>
    have hload := Config.load_eq_error_iff.2 ⟨_, hpath, h⟩
    simp only [check, hsettings, runSettings, hload]
  | selection hsettings hconfig h =>
    simp only [check, hsettings, runSettings, hconfig, Engine.build_eq_error_iff.2 h]

theorem check_of_breaks {error : LoadError} (h : Breaks reader system args error) :
    check reader system args = { status := .error (.config error) } := by
  obtain ⟨hunhandled, settings, path, hsettings, hpath, hrejects⟩ := h
  have hload := Config.load_eq_error_iff.2 ⟨path, hpath, hrejects⟩
  simp only [check, hsettings, runSettings, hload]

/--
Every command is refused, breaks off, or gets past its arguments and its configuration.
-/
theorem check_cases (reader : Yaml.Reader) (system : FileSystem) (args : List WideText) :
    (∃ error, Refuses reader system args error) ∨ (∃ error, Breaks reader system args error)
      ∨ ∃ settings engine, Reaches reader system args settings engine := by
  cases hsettings : Settings.ofArgs (dropSwitches args) with
  | error error => exact .inl ⟨error, .settings hsettings⟩
  | ok settings =>
    cases hconfig : Config.load reader system settings.config? with
    | error error =>
      obtain ⟨path, hpath, hrejects⟩ := Config.load_eq_error_iff.1 hconfig
      by_cases hhandled : ∃ e, error = .config e
      . obtain ⟨e, rfl⟩ := hhandled
        exact .inl ⟨_, .config hsettings hpath hrejects⟩
      . exact .inr (.inl ⟨error, fun e he => hhandled ⟨e, he⟩, settings, path, hsettings, hpath,
          hrejects⟩)
    | ok config? =>
      cases hengine : Engine.build settings.enabled (config?.map Config.toDraft) #[] with
      | error error =>
        exact .inl ⟨_, .selection hsettings hconfig (Engine.build_eq_error_iff.1 hengine)⟩
      | ok engine => exact .inr (.inr ⟨settings, engine, hsettings, config?, hconfig, hengine⟩)

/--
What is reported on the files, in their order, is faithful and the same for any switches.
-/
theorem runEngine_reports (hparsed : system.IsParsed) {engine : Engine}
    (hrules : ∀ rule ∈ engine.rules, rule.IsSelectable) (settings : Settings) :
    ∃ report : Report,
      List.Forall₂ (fun file r => r.file = file ∧ Engine.reportOf engine.rules system file = .ok r)
        (system.discoverAll settings.paths) report.files
      ∧ (∀ r ∈ report.files, r.IsFaithful)
      ∧ ∀ switches,
        let outcome := runEngine system switches settings engine
        outcome.status = .ok report.status
          ∧ outcome.stdout = renderReport report switches.format := by
  choose r hr hfile hfaithful using Engine.reportOf_faithful hrules hparsed
  have hreports : List.Forall₂ (fun file r => Engine.reportOf engine.rules system file = .ok r)
      (system.discoverAll settings.paths) ((system.discoverAll settings.paths).map r) :=
    forall₂_map fun file _ => hr file
  have hbatch := Engine.checkFiles_outcome engine system settings.jobs
    (List.Perm.refl (Engine.scheduleInTurn (system.discoverAll settings.paths)))
  rw [mapM_eq_ok_iff.2 hreports] at hbatch
  refine ⟨⟨_, Selection.sortNames (engine.rules.map Rule.identifier)⟩,
    forall₂_map fun file _ => ⟨hfile file, hr file⟩, ?_, fun switches => ?_⟩
  . intro report hreport
    obtain ⟨file, _, rfl⟩ := List.mem_map.1 hreport
    exact hfaithful file
  . simp only [runEngine, hbatch, and_self]

theorem Reaches.isSelectable {settings : Settings} {engine : Engine}
    (h : Reaches reader system args settings engine) :
    ∀ rule ∈ engine.rules, rule.IsSelectable := by
  obtain ⟨_, _, _, hengine⟩ := h
  exact Engine.isSelectable_of_build hengine

theorem status_of_reaches (hparsed : system.IsParsed) {settings : Settings} {engine : Engine}
    (h : Reaches reader system args settings engine) :
    ∃ status ≤ 1, (check reader system args).status = .ok status := by
  obtain ⟨report, _, _, hruns⟩ := runEngine_reports hparsed h.isSelectable settings
  refine ⟨report.status, report.status_le, ?_⟩
  rw [check_of_reaches h]
  exact (hruns _).1

theorem lt_of_mem_unlines {j : Report.Json} {code : Nat}
    (h : code ∈ (unlines [WideText.ofString j.render]).codes) : code < 128 := by
  simp only [unlines, List.flatMap_singleton, List.mem_append, List.mem_singleton,
    WideText.codes_ofString, List.mem_map] at h
  rcases h with ⟨c, hc, rfl⟩ | rfl
  . exact (Report.Json.spells_render j).isAscii c hc
  . decide

/--
The output of a command that is asked for JSON consists of characters of ASCII only.
-/
theorem lt_of_mem_stdout (hjson : (Switches.ofArgs args).format = .json) {code : Nat}
    (h : code ∈ (check reader system args).stdout.codes) : code < 128 := by
  rcases check_cases reader system args with
    ⟨error, hrefuses⟩ | ⟨error, hbreaks⟩ | ⟨settings, engine, hreaches⟩
  . rw [check_of_refuses hrefuses, hjson] at h
    exact lt_of_mem_unlines h
  . rw [check_of_breaks hbreaks] at h
    simp at h
  . rw [check_of_reaches hreaches] at h
    unfold runEngine at h
    simp only at h
    split at h
    . simp at h
    . rw [hjson] at h
      exact lt_of_mem_unlines h

theorem statusOn_eq_ok_iff {encodes : Nat → Bool} {outcome : Outcome} {status : Nat} :
    outcome.statusOn encodes = .ok status ↔
      outcome.status = .ok status ∧ ∀ code ∈ outcome.stdout.codes, encodes code := by
  unfold Outcome.statusOn
  split
  . next h => simpa using fun _ => List.all_eq_true.1 h
  . next h => simpa [-Bool.not_eq_true] using fun _ => h

theorem status_of_not_breaks (hparsed : system.IsParsed)
    (h : ¬ ∃ error, Breaks reader system args error) :
    ∃ status ≤ 2, (check reader system args).status = .ok status := by
  rcases check_cases reader system args with
    ⟨error, hrefuses⟩ | hbroken | ⟨settings, engine, hreaches⟩
  . refine ⟨2, Nat.le_refl 2, ?_⟩
    rw [check_of_refuses hrefuses]
    cases (Switches.ofArgs args).format <;> rfl
  . exact absurd hbroken h
  . obtain ⟨status, hle, hends⟩ := status_of_reaches hparsed hreaches
    exact ⟨status, Nat.le_succ_of_le hle, hends⟩

/--
A command ends with one of its three statuses unless it breaks off, and with the last one exactly
if it is refused. All that it writes then is the one error. It may also break off at a text that
the stream for the output cannot encode, but then it is not asked for JSON.
-/
theorem check_status (reader : Yaml.Reader) (system : FileSystem) (args : List WideText)
    (hparsed : system.IsParsed) :
    let outcome := check reader system args
    let format := (Switches.ofArgs args).format
    (∀ error, Refuses reader system args error → IsRefusal error outcome format)
    ∧ (∀ error, Breaks reader system args error → outcome = { status := .error (.config error) })
    ∧ (outcome.status = .ok 2 ↔ ∃ error, Refuses reader system args error)
    ∧ ((∃ status ≤ 2, outcome.status = .ok status) ↔ ¬ ∃ error, Breaks reader system args error)
    ∧ ∀ encodes : Nat → Bool, (∀ code < 128, encodes code) →
      ((∃ status ≤ 2, outcome.statusOn encodes = .ok status) ↔
        (¬ ∃ error, Breaks reader system args error)
        ∧ (format = .text → ∀ code ∈ outcome.stdout.codes, encodes code)) := by
  intro outcome format
  have hends : (∃ status ≤ 2, outcome.status = .ok status) ↔
      ¬ ∃ error, Breaks reader system args error := by
    constructor
    . rintro ⟨status, _, hstatus⟩ ⟨error, hbreaks⟩
      simp [outcome, check_of_breaks hbreaks] at hstatus
    . exact status_of_not_breaks hparsed
  refine ⟨?_, fun _ => check_of_breaks, ?_, hends, ?_⟩
  . intro error hrefuses
    simp only [outcome, check_of_refuses hrefuses]
    exact isRefusal_refuse error format
  . constructor
    . intro hstatus
      rcases check_cases reader system args with
        hrefuses | ⟨error, hbreaks⟩ | ⟨settings, engine, hreaches⟩
      . exact hrefuses
      . simp [outcome, check_of_breaks hbreaks] at hstatus
      . obtain ⟨status, hle, hends⟩ := status_of_reaches hparsed hreaches
        simp only [outcome, hends, Except.ok.injEq] at hstatus
        omega
    . rintro ⟨error, hrefuses⟩
      simp only [outcome, check_of_refuses hrefuses]
      cases (Switches.ofArgs args).format <;> rfl
  . intro encodes hencodes
    have hwritten : (format = .text → ∀ code ∈ outcome.stdout.codes, encodes code) ↔
        ∀ code ∈ outcome.stdout.codes, encodes code := by
      constructor
      . intro htext code hcode
        cases hformat : format with
        | json => exact hencodes code (lt_of_mem_stdout hformat hcode)
        | text => exact htext hformat code hcode
      . exact fun h _ => h
    simp only [statusOn_eq_ok_iff, hwritten, ← hends]
    constructor
    . rintro ⟨status, hle, hstatus, hcodes⟩
      exact ⟨⟨status, hle, hstatus⟩, hcodes⟩
    . rintro ⟨⟨status, hle, hstatus⟩, hcodes⟩
      exact ⟨status, hle, hstatus, hcodes⟩

/--
A configuration of a single byte that no text starts with.
-/
def undecodableSystem : FileSystem :=
  ⟨.directory "" [.directory "srv" [.file "c.yml" ⟨true, ⟨#[0xff]⟩, .unparsed⟩]], ["srv"]⟩

theorem check_undecodableSystem :
    let reader := Yaml.Value.ofText ⟨40, 40⟩
    (∀ path ∈ ["c.yml", "/srv/c.yml"],
      let args : List WideText := ["--config", path, "a.rb"]
      Breaks reader undecodableSystem args .undecodable
        ∧ (check reader undecodableSystem args).status = .error (.config .undecodable)
        ∧ ¬ ∃ status ≤ 2, (check reader undecodableSystem args).status = .ok status)
    ∧ let args : List WideText := ["--text", ⟨[0xdcff]⟩]
      ¬ ∃ status ≤ 2,
        (check reader undecodableSystem args).statusOn (·.isValidChar) = .ok status := by
  intro reader
  have hparsed : undecodableSystem.IsParsed := by
    unfold FileSystem.IsParsed
    decide
  constructor
  . intro path hpath args
    have hsettings : Settings.ofArgs (dropSwitches args) = .ok ⟨[], some path, 1, ["a.rb"]⟩ := by
      rcases List.mem_pair.1 hpath with rfl | rfl <;> rfl
    have hfile : ∃ file, undecodableSystem.openFile path = .ok file ∧ file.bytes = ⟨#[0xff]⟩ := by
      rcases List.mem_pair.1 hpath with rfl | rfl <;> exact ⟨_, rfl, rfl⟩
    have hbreaks : Breaks reader undecodableSystem args .undecodable := by
      obtain ⟨file, hopen, hbytes⟩ := hfile
      refine ⟨by simp, _, path, hsettings, rfl, .undecodable hopen ?_⟩
      rw [hbytes]
      decide +kernel
    obtain ⟨_, hbroken, _, hends, _⟩ := check_status reader undecodableSystem args hparsed
    exact ⟨hbreaks, congrArg Outcome.status (hbroken _ hbreaks), fun h => hends.1 h ⟨_, hbreaks⟩⟩
  . intro args hstatus
    obtain ⟨_, _, _, _, hstreams⟩ := check_status reader undecodableSystem args hparsed
    have hwritten := ((hstreams _ (by decide)).1 hstatus).2 rfl
    have hname : 0xdcff ∈ (check reader undecodableSystem args).stdout.codes := by decide +kernel
    exact absurd (hwritten _ hname) (by decide)

end Command

end MigrationLint
