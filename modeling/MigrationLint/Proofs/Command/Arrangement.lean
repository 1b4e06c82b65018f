import MigrationLint.Command.Check
import MigrationLint.Proofs.List
import MigrationLint.Yaml.Value.OfGraph

/-!
This module contains the arguments of a command in groups: a switch, an option with its value, or a
path. However the groups are arranged, they are read as the same switches, values and paths, and the
outcome of the command is the same as long as the paths keep their order.
-/

namespace MigrationLint

namespace Command

/--
The options that take a value.
-/
inductive ValueOption where
  | checks
  | config
  | jobs
  deriving DecidableEq, Repr

def ValueOption.flag : ValueOption → WideText
  | checks => checksFlag
  | config => configFlag
  | jobs => jobsFlag

def flags : List WideText := [textFlag, debugFlag, checksFlag, configFlag, jobsFlag]

theorem ValueOption.flag_mem_flags (o : ValueOption) : o.flag ∈ flags := by
  cases o <;> decide

/--
Arguments that belong together.
-/
inductive ArgGroup where
  | text
  | debug
  | option (option : ValueOption) (value : WideText)
  | path (name : WideText)
  deriving DecidableEq, Repr

namespace ArgGroup

def flag? : ArgGroup → Option WideText
  | text => some textFlag
  | debug => some debugFlag
  | option o _ => some o.flag
  | path _ => none

/--
Get the argument of a group that is no flag: the value of an option, or a path.
-/
def word? : ArgGroup → Option WideText
  | option _ value => some value
  | path name => some name
  | _ => none

def args (g : ArgGroup) : List WideText :=
  g.flag?.toList ++ g.word?.toList

def isSwitch : ArgGroup → Bool
  | text | debug => true
  | _ => false

def valueOf? (o : ValueOption) : ArgGroup → Option WideText
  | option other value => if other = o then some value else none
  | _ => none

def path? : ArgGroup → Option WideText
  | path name => some name
  | _ => none

/--
The argument of a group that is no flag is not spelled like one.
-/
def IsPlain (g : ArgGroup) : Prop := ∀ word ∈ g.word?, word ∉ flags

instance (g : ArgGroup) : Decidable g.IsPlain :=
  inferInstanceAs (Decidable (∀ word ∈ g.word?, word ∉ flags))

variable {g : ArgGroup} {o : ValueOption} {value : WideText}

theorem mem_args_iff (h : g.IsPlain) {flag : WideText} (hflag : flag ∈ flags) :
    flag ∈ g.args ↔ g.flag? = some flag := by
  have hword : flag ∉ g.word?.toList := by
    intro hmem
    exact h flag (Option.mem_toList.1 hmem) hflag
  simp [args, hword]

theorem flag?_eq_text_iff : g.flag? = some textFlag ↔ g = text := by
  cases g with
  | option o value => cases o <;> simp [flag?] <;> decide
  | _ => simp [flag?] <;> decide

theorem flag?_eq_debug_iff : g.flag? = some debugFlag ↔ g = debug := by
  cases g with
  | option o value => cases o <;> simp [flag?] <;> decide
  | _ => simp [flag?] <;> decide

theorem valueOf?_eq_some_iff : g.valueOf? o = some value ↔ g = option o value := by
  cases g <;> simp [valueOf?]

theorem flag?_ne_of_valueOf?_eq_none (h : g.valueOf? o = none) : g.flag? ≠ some o.flag := by
  cases g with
  | text => cases o <;> decide
  | debug => cases o <;> decide
  | path name => simp [flag?]
  | option other value =>
    have hother : other ≠ o := by
      rintro rfl
      simp [valueOf?] at h
    revert hother
    cases other <;> cases o <;> simp [flag?] <;> decide

theorem dropSwitches_args (h : g.IsPlain) :
    dropSwitches g.args = if g.isSwitch then [] else g.args := by
  have hword (word : WideText) (hword : g.word? = some word) :
      word ≠ textFlag ∧ word ≠ debugFlag := by
    constructor <;> rintro rfl <;> exact h _ hword (by decide)
  cases g with
  | text => rfl
  | debug => rfl
  | path name => simp [args, flag?, word?, dropSwitches, isSwitch, hword name rfl]
  | option o value =>
    have hflag : o.flag ≠ textFlag ∧ o.flag ≠ debugFlag := by
      cases o <;> decide
    simp [args, flag?, word?, dropSwitches, isSwitch, hflag, hword value rfl]

theorem exists_path (hswitch : g.isSwitch = false) (hvalue : ∀ o, g.valueOf? o = none) :
    ∃ name, g = path name := by
  cases g with
  | path name => exact ⟨name, rfl⟩
  | option o value => simp [valueOf?] at hvalue
  | _ => cases hswitch

end ArgGroup

section Arrangement

def argsOf (groups : List ArgGroup) : List WideText :=
  groups.flatMap ArgGroup.args

def valuesOf (o : ValueOption) (groups : List ArgGroup) : List WideText :=
  groups.filterMap (ArgGroup.valueOf? o)

def pathsOf (groups : List ArgGroup) : List WideText :=
  groups.filterMap ArgGroup.path?

def without (o : ValueOption) (groups : List ArgGroup) : List ArgGroup :=
  groups.filter fun g => (g.valueOf? o).isNone

/--
No value and no path is spelled like a flag, and no option with a value is given twice.
-/
structure IsArrangement (groups : List ArgGroup) : Prop where
  plain : ∀ g ∈ groups, g.IsPlain
  once : ∀ o, (valuesOf o groups).length ≤ 1

variable {groups others : List ArgGroup} {o : ValueOption}

theorem mem_argsOf_iff (h : IsArrangement groups) {flag : WideText} (hflag : flag ∈ flags) :
    flag ∈ argsOf groups ↔ ∃ g ∈ groups, g.flag? = some flag := by
  unfold argsOf
  rw [List.mem_flatMap]
  refine exists_congr fun g => and_congr_right fun hg => ?_
  exact ArgGroup.mem_args_iff (h.plain g hg) hflag

theorem switches_argsOf (h : IsArrangement groups) :
    Switches.ofArgs (argsOf groups) =
      ⟨if .text ∈ groups then .text else .json, .debug ∈ groups⟩ := by
  have htext : textFlag ∈ argsOf groups ↔ .text ∈ groups := by
    simp [mem_argsOf_iff h (show textFlag ∈ flags by decide), ArgGroup.flag?_eq_text_iff]
  have hdebug : debugFlag ∈ argsOf groups ↔ .debug ∈ groups := by
    simp [mem_argsOf_iff h (show debugFlag ∈ flags by decide), ArgGroup.flag?_eq_debug_iff]
  simp only [Switches.ofArgs, htext, hdebug]

theorem IsArrangement.filter (h : IsArrangement groups) (p : ArgGroup → Bool) :
    IsArrangement (groups.filter p) where
  plain g hg := h.plain g (List.mem_of_mem_filter hg)
  once o :=
    Nat.le_trans (List.filter_sublist.filterMap (ArgGroup.valueOf? o)).length_le (h.once o)

theorem IsArrangement.without (h : IsArrangement groups) (o : ValueOption) :
    IsArrangement (without o groups) :=
  h.filter _

theorem IsArrangement.perm (h : IsArrangement groups) (hperm : others.Perm groups) :
    IsArrangement others where
  plain g hg := h.plain g (hperm.mem_iff.1 hg)
  once o := (hperm.filterMap (ArgGroup.valueOf? o)).length_eq ▸ h.once o

theorem dropSwitches_argsOf (h : ∀ g ∈ groups, g.IsPlain) :
    dropSwitches (argsOf groups) = argsOf (groups.filter (!·.isSwitch)) := by
  induction groups with
  | nil => rfl
  | cons g gs ih =>
    obtain ⟨hg, hgs⟩ := List.forall_mem_cons.1 h
    have hcons : dropSwitches (argsOf (g :: gs)) =
        dropSwitches g.args ++ dropSwitches (argsOf gs) :=
      List.filter_append ..
    rw [hcons, ih hgs, ArgGroup.dropSwitches_args hg]
    cases hswitch : g.isSwitch <;> simp [argsOf, hswitch]

theorem popOption_append {flag value : WideText} {before after : List WideText}
    (h : flag ∉ before) :
    popOption flag (before ++ flag :: value :: after) = .ok (value, before ++ after) := by
  induction before with
  | nil => simp [popOption]
  | cons arg args ih =>
    obtain ⟨hne, hargs⟩ := not_or.1 fun hmem => h (List.mem_cons.2 hmem)
    simp [popOption, Ne.symm hne, ih hargs]

theorem flag_notMem_argsOf (h : ∀ g ∈ groups, g.IsPlain) (hvalue : valuesOf o groups = []) :
    o.flag ∉ argsOf groups := by
  intro hflag
  obtain ⟨g, hg, hflag⟩ := List.mem_flatMap.1 hflag
  have hnone := List.filterMap_eq_nil_iff.1 hvalue g hg
  exact ArgGroup.flag?_ne_of_valueOf?_eq_none hnone
    ((ArgGroup.mem_args_iff (h g hg) o.flag_mem_flags).1 hflag)

theorem without_eq_self (h : valuesOf o groups = []) : without o groups = groups := by
  apply List.filter_eq_self.2
  intro g hg
  rw [List.filterMap_eq_nil_iff.1 h g hg, Option.isNone_none]

theorem exists_split (h : IsArrangement groups) {value : WideText} {values : List WideText}
    (hvalues : valuesOf o groups = value :: values) :
    ∃ early late, groups = early ++ .option o value :: late
      ∧ valuesOf o early = [] ∧ valuesOf o late = [] := by
  obtain ⟨early, g, late, hgroups, hearly, hg, hlate⟩ := List.filterMap_eq_cons_iff.1 hvalues
  obtain rfl := ArgGroup.valueOf?_eq_some_iff.1 hg
  have honce := h.once o
  rw [hvalues, List.length_cons] at honce
  have hvalues : values = [] := List.length_eq_zero_iff.1 (by omega)
  exact ⟨early, late, hgroups, List.filterMap_eq_nil_iff.2 hearly, hlate.trans hvalues⟩

/--
Taking an option takes the group with its value, wherever that stands.
-/
theorem takeOption_argsOf (h : IsArrangement groups) :
    takeOption o.flag (argsOf groups) =
      .ok ((valuesOf o groups).head?, argsOf (without o groups)) := by
  cases hvalues : valuesOf o groups with
  | nil => simp [takeOption, flag_notMem_argsOf h.plain hvalues, without_eq_self hvalues]
  | cons value values =>
    obtain ⟨early, late, rfl, hearly, hlate⟩ := exists_split h hvalues
    have hargs : argsOf (early ++ .option o value :: late) =
        argsOf early ++ o.flag :: value :: argsOf late := by
      simp [argsOf, ArgGroup.args, ArgGroup.flag?, ArgGroup.word?]
    have hwithout : without o (early ++ .option o value :: late) = early ++ late := by
      calc without o (early ++ .option o value :: late)
        _ = without o early ++ without o late := by
          simp [without, ArgGroup.valueOf?]
        _ = early ++ late := by
          rw [without_eq_self hearly, without_eq_self hlate]
    have hnotMem : o.flag ∉ argsOf early :=
      flag_notMem_argsOf (fun g hg => h.plain g (List.mem_append_left _ hg)) hearly
    rw [hargs, hwithout, takeOption, if_pos (by simp), popOption_append hnotMem]
    simp [argsOf]

theorem valuesOf_without {other : ValueOption} (h : o ≠ other) :
    valuesOf o (without other groups) = valuesOf o groups := by
  apply filterMap_filter_eq
  intro g _ hg
  obtain ⟨value, hvalue⟩ := Option.isSome_iff_exists.1 (Option.isNone_eq_false_iff.1 hg)
  obtain rfl := ArgGroup.valueOf?_eq_some_iff.1 hvalue
  simp [ArgGroup.valueOf?, Ne.symm h]

theorem valuesOf_filter_isSwitch :
    valuesOf o (groups.filter (!·.isSwitch)) = valuesOf o groups := by
  apply filterMap_filter_eq
  intro g _ hg
  cases g <;> simp_all [ArgGroup.isSwitch, ArgGroup.valueOf?]

theorem pathsOf_without : pathsOf (without o groups) = pathsOf groups := by
  apply filterMap_filter_eq
  intro g _ hg
  cases g <;> simp_all [ArgGroup.path?, ArgGroup.valueOf?]

theorem pathsOf_filter_isSwitch : pathsOf (groups.filter (!·.isSwitch)) = pathsOf groups := by
  apply filterMap_filter_eq
  intro g _ hg
  cases g <;> simp_all [ArgGroup.isSwitch, ArgGroup.path?]

theorem argsOf_eq_pathsOf (h : ∀ g ∈ groups, ∃ name, g = .path name) :
    argsOf groups = pathsOf groups := by
  induction groups with
  | nil => rfl
  | cons g gs ih =>
    obtain ⟨⟨name, rfl⟩, hgs⟩ := List.forall_mem_cons.1 h
    exact congrArg (name :: ·) (ih hgs)

/--
When the switches and the options are taken, the paths are left.
-/
theorem argsOf_without (groups : List ArgGroup) :
    argsOf (without .jobs (without .config (without .checks (groups.filter (!·.isSwitch))))) =
      pathsOf groups := by
  rw [argsOf_eq_pathsOf]
  . simp only [pathsOf_without, pathsOf_filter_isSwitch]
  . intro g hg
    obtain ⟨⟨⟨⟨_, hswitch⟩, hchecks⟩, hconfig⟩, hjobs⟩ :
        (((g ∈ groups ∧ _) ∧ _) ∧ _) ∧ _ := by
      simpa only [without, List.mem_filter] using hg
    apply ArgGroup.exists_path (by simpa using hswitch)
    intro o
    cases o with
    | checks => exact Option.isNone_iff_eq_none.1 hchecks
    | config => exact Option.isNone_iff_eq_none.1 hconfig
    | jobs => exact Option.isNone_iff_eq_none.1 hjobs

/--
The settings that options with these values ask for. Unknown checks are refused before a bad number
of workers, and that is refused before a lack of paths.
-/
def Settings.ofValues (checks? config? jobs? : Option WideText) (paths : List WideText) :
    Except UsageError Settings := do
  let enabled ← checks?.elim (.ok []) readChecks
  let jobs ← jobs?.elim (.ok 1) readJobs
  if paths.isEmpty then .error .noFiles
  else .ok { enabled, config?, jobs, paths }

theorem settings_argsOf (h : IsArrangement groups) :
    Settings.ofArgs (dropSwitches (argsOf groups)) =
      Settings.ofValues (valuesOf .checks groups).head? (valuesOf .config groups).head?
        (valuesOf .jobs groups).head? (pathsOf groups) := by
  have hrest := h.filter (!·.isSwitch)
  have hchecks : takeOption checksFlag _ = _ := takeOption_argsOf (o := .checks) hrest
  have hrest := hrest.without .checks
  have hconfig : takeOption configFlag _ = _ := takeOption_argsOf (o := .config) hrest
  have hrest := hrest.without .config
  have hjobs : takeOption jobsFlag _ = _ := takeOption_argsOf (o := .jobs) hrest
  simp only [ne_eq, reduceCtorEq, not_false_eq_true, valuesOf_without, valuesOf_filter_isSwitch,
    argsOf_without] at hchecks hconfig hjobs
  rw [dropSwitches_argsOf h.plain, Settings.ofArgs, hchecks]
  simp only [bind, Except.bind, hconfig, hjobs]
  rfl

/--
Arguments are read as the switches, the values and the paths of their groups. Another arrangement
of the groups with the paths in the same order has the same outcome.
-/
theorem check_arrangement (reader : Yaml.Reader) (system : FileSystem)
    (h : IsArrangement groups) :
    Switches.ofArgs (argsOf groups) = ⟨if .text ∈ groups then .text else .json, .debug ∈ groups⟩
      ∧ Settings.ofArgs (dropSwitches (argsOf groups)) =
        Settings.ofValues (valuesOf .checks groups).head? (valuesOf .config groups).head?
          (valuesOf .jobs groups).head? (pathsOf groups)
      ∧ ∀ others : List ArgGroup, others.Perm groups → pathsOf others = pathsOf groups →
        check reader system (argsOf others) = check reader system (argsOf groups) := by
  refine ⟨switches_argsOf h, settings_argsOf h, fun others hperm hpaths => ?_⟩
  have hothers := h.perm hperm
  have hvalue (o : ValueOption) : (valuesOf o others).head? = (valuesOf o groups).head? :=
    head?_eq_of_perm (hperm.filterMap (ArgGroup.valueOf? o)) (h.once o)
  have hswitches : Switches.ofArgs (argsOf others) = Switches.ofArgs (argsOf groups) := by
    simp only [switches_argsOf h, switches_argsOf hothers, hperm.mem_iff]
  have hsettings : Settings.ofArgs (dropSwitches (argsOf others)) =
      Settings.ofArgs (dropSwitches (argsOf groups)) := by
    simp only [settings_argsOf h, settings_argsOf hothers, hvalue, hpaths]
  simp only [check, hswitches, hsettings]

theorem check_twoErrors :
    let reader := Yaml.Value.ofText ⟨40, 40⟩
    let system : FileSystem := ⟨.directory "" [], []⟩
    let groups : List ArgGroup :=
      [.path "b.rb", .option .jobs "0", .text, .option .checks "Nope", .path "a.rb"]
    let others : List ArgGroup :=
      [.text, .option .checks "Nope", .path "b.rb", .path "a.rb", .option .jobs "0"]
    let args : List WideText := ["b.rb", "--jobs", "0", "--text", "--checks", "Nope", "a.rb"]
    let error : UsageError := .unknownChecks ["Nope"] ["IsolateSeedDataCheck"]
    IsArrangement groups ∧ argsOf groups = args
      ∧ check reader system (argsOf groups) = refuse error .text
      ∧ check reader system (argsOf others) = refuse error .text := by
  intro reader system groups others args error
  have harrangement : IsArrangement groups := by
    constructor
    . decide
    . intro o
      cases o <;> decide
  obtain ⟨hswitches, hsettings, harranged⟩ := check_arrangement reader system harrangement
  have hread : readChecks "Nope" = .error error := by
    have hnames : splitNames "Nope" = [WideText.ofString "Nope"] := by decide +kernel
    have hunknown : Selection.check? "Nope" = none := by decide +kernel
    have hdistinct : distinct ["Nope"] = [WideText.ofString "Nope"] := rfl
    simp [readChecks, hnames, hunknown, hdistinct, WideText.sort, Selection.sortNames,
      Selection.allChecks, error, Rule.seedDataName]
  have herror : Settings.ofArgs (dropSwitches (argsOf groups)) = .error error := by
    rw [hsettings]
    exact congrArg (fun read => read >>= _) hread
  have hrefused : check reader system (argsOf groups) = refuse error .text := by
    simp only [check, herror, hswitches]
    rfl
  refine ⟨harrangement, rfl, hrefused, ?_⟩
  rw [harranged others (by decide) (by decide), hrefused]

end Arrangement

end Command

end MigrationLint
