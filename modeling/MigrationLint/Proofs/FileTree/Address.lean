import Mathlib.Data.List.Basic
import Mathlib.Data.List.Nodup
import Mathlib.Tactic.Choose
import MigrationLint.FileTree.Discovery
import MigrationLint.Proofs.List
import MigrationLint.Proofs.Text.Wide

/-!
This module contains the addresses of the files below a directory, and the order in which a
discovery lists them. A file is listed if its name is one of a source file and no directory on the
way to it is ignored. The list is strictly ascending in an order that is given on addresses alone,
so that no file is listed twice and nothing but the set of listed files matters.
-/

namespace MigrationLint

/--
A path with a slash at its end, unless it is empty.
-/
def slashed (path : WideText) : WideText :=
  if path.codes.getLast?.all (· == '/'.toNat) then path else path ++ "/"

/--
Where a file stands below a directory: the names of the directories on the way to it, and its own.
-/
structure Address where
  directories : List WideText
  name : WideText
  deriving DecidableEq, Repr

namespace Address

def under (directory : WideText) (a : Address) : Address :=
  { a with directories := directory :: a.directories }

/--
Write the path of an address, given the path of the directory that it starts from.
-/
def path (start : WideText) (a : Address) : WideText :=
  slashed (a.directories.foldl (fun path directory => slashed path ++ directory) start) ++ a.name

/--
The files of a directory stand before those of its subdirectories, and both in the order of names.
-/
inductive Before : Address → Address → Prop where
  | names {name other : WideText} (h : name < other) : Before ⟨[], name⟩ ⟨[], other⟩
  | nearer (name directory : WideText) (directories : List WideText) (other : WideText) :
    Before ⟨[], name⟩ ⟨directory :: directories, other⟩
  | directories {directory other : WideText} (h : directory < other) (as bs : List WideText)
    (name file : WideText) : Before ⟨directory :: as, name⟩ ⟨other :: bs, file⟩
  | inside (directory : WideText) {as bs : List WideText} {name other : WideText}
    (h : Before ⟨as, name⟩ ⟨bs, other⟩) :
    Before ⟨directory :: as, name⟩ ⟨directory :: bs, other⟩

theorem Before.under {a b : Address} (h : Before a b) (directory : WideText) :
    Before (a.under directory) (b.under directory) :=
  .inside directory h

theorem Before.asymm {a b : Address} (h : Before a b) : ¬ Before b a := by
  induction h with
  | names h =>
    intro hother
    cases hother with
    | names hother => exact WideText.lt_asymm h hother
  | nearer => nofun
  | directories h as bs name file =>
    intro hother
    cases hother with
    | directories hother => exact WideText.lt_asymm h hother
    | inside => exact WideText.lt_irrefl _ h
  | inside directory h ih =>
    intro hother
    cases hother with
    | directories hother => exact WideText.lt_irrefl _ hother
    | inside _ hother => exact ih hother

theorem nodup_of_pairwise {as : List Address} (h : as.Pairwise Before) : as.Nodup := by
  apply h.imp
  rintro a _ hbefore rfl
  exact hbefore.asymm hbefore

/--
Addresses that ascend are known by which they are.
-/
theorem eq_of_pairwise {as bs : List Address} (has : as.Pairwise Before) (hbs : bs.Pairwise Before)
    (hmem : ∀ a, a ∈ as ↔ a ∈ bs) : as = bs := by
  have hperm : as.Perm bs :=
    (List.perm_ext_iff_of_nodup (nodup_of_pairwise has) (nodup_of_pairwise hbs)).2 hmem
  exact hperm.eq_of_pairwise (fun a b _ _ hab hba => absurd hba hab.asymm) has hbs

end Address

namespace FileTree

/--
A file stands at an address below a directory.
-/
inductive Holds : FileTree → Address → Prop where
  | file {name file : WideText} {source : SourceFile} {entries : List FileTree}
    (h : .file file source ∈ entries) : Holds (directory name entries) ⟨[], file⟩
  | deeper {name : WideText} {entries : List FileTree} {e : FileTree} {a : Address}
    (he : e ∈ entries) (h : Holds e a) : Holds (directory name entries) (a.under e.name)

/--
The entries of a place and of all directories below it are as required.
-/
inductive EachDirectory (P : List FileTree → Prop) : FileTree → Prop where
  | file (name : WideText) (source : SourceFile) : EachDirectory P (file name source)
  | directory (name : WideText) {entries : List FileTree} (h : P entries)
    (hentries : ∀ e ∈ entries, EachDirectory P e) : EachDirectory P (directory name entries)

theorem eachDirectory_file {P : List FileTree → Prop} (name : WideText) (source : SourceFile) :
    (file name source).EachDirectory P :=
  .file name source

theorem eachDirectory_directory_iff {P : List FileTree → Prop} {name : WideText}
    {entries : List FileTree} :
    (directory name entries).EachDirectory P ↔ P entries ∧ ∀ e ∈ entries, e.EachDirectory P := by
  constructor
  . intro h
    cases h with
    | directory _ h hentries => exact ⟨h, hentries⟩
  . rintro ⟨h, hentries⟩
    exact .directory name h hentries

theorem EachDirectory.of_mem_entries {P : List FileTree → Prop} {place e : FileTree}
    (h : place.EachDirectory P) (he : e ∈ place.entries) : e.EachDirectory P := by
  cases h with
  | file => cases he
  | directory _ _ hentries => exact hentries e he

/--
No directory has two entries of one name, which is told by its bytes.
-/
abbrev DistinctNames : FileTree → Prop :=
  EachDirectory fun entries => (entries.map (·.name.encoded)).Nodup

/--
No name is empty or has a slash.
-/
abbrev PlainNames : FileTree → Prop :=
  EachDirectory fun entries => ∀ e ∈ entries, e.name ≠ "" ∧ '/'.toNat ∉ e.name.codes

theorem nodup_names {entries : List FileTree} (h : (entries.map (·.name.encoded)).Nodup) :
    (entries.map (·.name)).Nodup := by
  apply List.Nodup.of_map WideText.encoded
  rwa [List.map_map]

/--
A file that stands at an address and is to be listed.
-/
structure Lists (place : FileTree) (a : Address) : Prop where
  holds : place.Holds a
  isSource : ∃ stem : WideText, a.name = stem ++ ".rb"
  kept : ∀ directory ∈ a.directories,
    directory ∉ (["vendor", "spec", "test", "tmp", "node_modules", ".git"] : List WideText)

theorem isSourceName_iff {name : WideText} :
    isSourceName name ↔ ∃ stem : WideText, name = stem ++ ".rb" := by
  rw [isSourceName, List.isSuffixOf_iff_suffix]
  constructor
  . rintro ⟨codes, hcodes⟩
    exact ⟨⟨codes⟩, WideText.ext hcodes.symm⟩
  . rintro ⟨stem, rfl⟩
    exact List.suffix_append _ _

theorem join_eq_slashed_append (path name : WideText) : join path name = slashed path ++ name := by
  unfold join slashed
  split <;> rfl

def isSearched (e : FileTree) : Bool :=
  e.isDirectory && !(e.name ∈ ignoredDirectories)

theorem isSearched_iff {e : FileTree} :
    e.isSearched ↔ e.isDirectory ∧ e.name ∉ ignoredDirectories := by
  simp [isSearched]

/--
List the names of the files of a directory that are listed, in order.
-/
def listedNames (entries : List FileTree) : List WideText :=
  (sortByName (sourceNames entries)).map (·.1)

/--
List the subdirectories of a directory that are searched, in the order of their names.
-/
def searched (entries : List FileTree) : List FileTree :=
  (entries.filter isSearched).mergeSort fun d e => !decide (e.name < d.name)

theorem subdirectories_eq (path : WideText) (es : List FileTree) :
    subdirectories path es =
      (es.filter isSearched).map fun e => (e.name, sourcesBelow (join path e.name) e) := by
  induction es with
  | nil => rfl
  | cons e es ih =>
    rw [subdirectories, List.filter_cons]
    by_cases he : e.isDirectory ∧ e.name ∉ ignoredDirectories
    . rw [if_pos he, if_pos (isSearched_iff.2 he), ih, List.map_cons]
    . rw [if_neg he, if_neg (mt isSearched_iff.1 he), ih]

theorem sourcesBelow_directory (path name : WideText) (entries : List FileTree) :
    sourcesBelow path (directory name entries) =
      (listedNames entries).map (join path) ++
        (searched entries).flatMap fun e => sourcesBelow (join path e.name) e := by
  have hsorted : sortByName (subdirectories path entries) =
      (searched entries).map fun e => (e.name, sourcesBelow (join path e.name) e) := by
    rw [subdirectories_eq, sortByName, searched, List.map_mergeSort]
    exact fun _ _ _ _ => rfl
  rw [sourcesBelow, hsorted, List.flatMap_map, listedNames, List.map_map]
  rfl

theorem pairwise_listedNames {entries : List FileTree} (h : (entries.map (·.name)).Nodup) :
    (listedNames entries).Pairwise (· < ·) := by
  rw [listedNames, List.pairwise_map]
  apply WideText.pairwise_lt_mergeSort
  have hsublist : ((sourceNames entries).map (·.1)).Sublist (entries.map (·.name)) := by
    rw [sourceNames, List.map_map]
    exact (List.filter_sublist).map _
  exact h.sublist hsublist

theorem pairwise_searched {entries : List FileTree} (h : (entries.map (·.name)).Nodup) :
    (searched entries).Pairwise fun d e => d.name < e.name :=
  WideText.pairwise_lt_mergeSort (h.sublist (List.filter_sublist.map _))

theorem mem_listedNames {entries : List FileTree} {name : WideText} :
    name ∈ listedNames entries ↔
      (∃ source, file name source ∈ entries) ∧ ∃ stem : WideText, name = stem ++ ".rb" := by
  rw [← isSourceName_iff]
  simp only [listedNames, sortByName, sourceNames, List.mem_map, List.mem_mergeSort,
    List.mem_filter, Bool.and_eq_true, Bool.not_eq_true']
  constructor
  . rintro ⟨_, ⟨e, ⟨he, hfile, hsource⟩, rfl⟩, rfl⟩
    cases e with
    | file name source => exact ⟨⟨source, he⟩, hsource⟩
    | directory name entries => cases hfile
  . rintro ⟨⟨source, hfile⟩, hsource⟩
    exact ⟨_, ⟨file name source, ⟨hfile, rfl, hsource⟩, rfl⟩, rfl⟩

theorem mem_searched {entries : List FileTree} {e : FileTree} :
    e ∈ searched entries ↔ e ∈ entries ∧ e.isSearched := by
  rw [searched, List.mem_mergeSort, List.mem_filter]

theorem Holds.isDirectory {place : FileTree} {a : Address} (h : place.Holds a) :
    place.isDirectory := by
  cases h <;> rfl

theorem lists_directory_iff {name : WideText} {entries : List FileTree} {a : Address} :
    (directory name entries).Lists a ↔
      (∃ file ∈ listedNames entries, a = ⟨[], file⟩)
        ∨ ∃ e ∈ searched entries, ∃ b, e.Lists b ∧ a = b.under e.name := by
  constructor
  . rintro ⟨hholds, hsource, hkept⟩
    cases hholds with
    | file h => exact .inl ⟨_, mem_listedNames.2 ⟨⟨_, h⟩, hsource⟩, rfl⟩
    | @deeper _ _ e b he h =>
      obtain ⟨hname, hkept⟩ := List.forall_mem_cons.1 hkept
      have hsearched : e.isSearched := isSearched_iff.2 ⟨h.isDirectory, hname⟩
      exact .inr ⟨e, mem_searched.2 ⟨he, hsearched⟩, b, ⟨h, hsource, hkept⟩, rfl⟩
  . rintro (⟨file, hfile, rfl⟩ | ⟨e, he, b, ⟨hholds, hsource, hkept⟩, rfl⟩)
    . obtain ⟨⟨source, hmem⟩, hsource⟩ := mem_listedNames.1 hfile
      exact ⟨.file hmem, hsource, List.forall_mem_nil _⟩
    . obtain ⟨hmem, hsearched⟩ := mem_searched.1 he
      have hname : e.name ∉ ignoredDirectories := (isSearched_iff.1 hsearched).2
      exact ⟨.deeper hmem hholds, hsource, List.forall_mem_cons.2 ⟨hname, hkept⟩⟩

/--
The addresses below a directory in order, given those below its subdirectories.
-/
def addressesOf (entries : List FileTree) (inside : FileTree → List Address) : List Address :=
  (listedNames entries).map (⟨[], ·⟩) ++
    (searched entries).flatMap fun e => (inside e).map (·.under e.name)

section Addresses

variable {entries : List FileTree} {inside : FileTree → List Address}

theorem map_path_addressesOf (name path : WideText)
    (h : ∀ e ∈ entries, ∀ path, sourcesBelow path e = (inside e).map (·.path path)) :
    sourcesBelow path (directory name entries) =
      (addressesOf entries inside).map (·.path path) := by
  rw [sourcesBelow_directory, addressesOf, List.map_append, List.map_map, List.map_flatMap]
  congr 1
  . apply List.map_congr_left
    intro file _
    exact join_eq_slashed_append path file
  . apply List.flatMap_congr
    intro e he
    rw [h e (mem_searched.1 he).1, List.map_map, join_eq_slashed_append]
    rfl

theorem pairwise_addressesOf (hnames : (entries.map (·.name)).Nodup)
    (h : ∀ e ∈ entries, (inside e).Pairwise Address.Before) :
    (addressesOf entries inside).Pairwise Address.Before := by
  rw [addressesOf, List.pairwise_append, List.pairwise_map, List.pairwise_flatMap]
  refine ⟨(pairwise_listedNames hnames).imp .names, ⟨?_, ?_⟩, ?_⟩
  . intro e he
    rw [List.pairwise_map]
    exact (h e (mem_searched.1 he).1).imp fun hab => hab.under e.name
  . apply (pairwise_searched hnames).imp
    intro d e hde a ha b hb
    obtain ⟨a, _, rfl⟩ := List.mem_map.1 ha
    obtain ⟨b, _, rfl⟩ := List.mem_map.1 hb
    exact .directories hde _ _ _ _
  . intro a ha b hb
    obtain ⟨file, _, rfl⟩ := List.mem_map.1 ha
    obtain ⟨e, _, hb⟩ := List.mem_flatMap.1 hb
    obtain ⟨b, _, rfl⟩ := List.mem_map.1 hb
    exact .nearer _ _ _ _

theorem mem_addressesOf (name : WideText) {a : Address}
    (h : ∀ e ∈ entries, ∀ b, b ∈ inside e ↔ e.Lists b) :
    a ∈ addressesOf entries inside ↔ (directory name entries).Lists a := by
  rw [lists_directory_iff, addressesOf, List.mem_append, List.mem_map, List.mem_flatMap]
  apply or_congr
  . simp only [eq_comm]
  . apply exists_congr
    intro e
    apply and_congr_right
    intro he
    rw [List.mem_map]
    simp only [h e (mem_searched.1 he).1, eq_comm]

end Addresses

/--
The addresses of the files to list below a place, in order.
-/
structure ListsInOrder (place : FileTree) (addresses : List Address) : Prop where
  ascending : addresses.Pairwise Address.Before
  mem_iff : ∀ a, a ∈ addresses ↔ place.Lists a

theorem exists_addresses {place : FileTree} (h : place.DistinctNames) :
    ∃ addresses : List Address,
      place.ListsInOrder addresses
        ∧ ∀ path, sourcesBelow path place = addresses.map (·.path path) := by
  induction h with
  | file name source =>
    refine ⟨[], ⟨.nil, fun a => ?_⟩, fun path => rfl⟩
    rw [iff_false_intro List.not_mem_nil, false_iff]
    intro hlists
    cases hlists.holds
  | @directory name entries hnames _ ih =>
    choose! inside hinside hpaths using ih
    have hascending : (addressesOf entries inside).Pairwise Address.Before :=
      pairwise_addressesOf (nodup_names hnames) fun e he => (hinside e he).ascending
    have hmem : ∀ a, a ∈ addressesOf entries inside ↔ (directory name entries).Lists a :=
      fun a => mem_addressesOf name fun e he => (hinside e he).mem_iff
    exact ⟨_, ⟨hascending, hmem⟩, fun path => map_path_addressesOf name path hpaths⟩

end FileTree

namespace Address

open FileTree

def IsPlain (a : Address) : Prop :=
  ∀ name ∈ a.directories ++ [a.name], name ≠ "" ∧ '/'.toNat ∉ name.codes

def spelled (a : Address) : List Nat :=
  a.directories.flatMap (fun directory => directory.codes ++ ['/'.toNat]) ++ a.name.codes

theorem slashed_append (path : WideText) {name : WideText} (hname : name ≠ "")
    (hslash : '/'.toNat ∉ name.codes) : slashed (path ++ name) = path ++ name ++ "/" := by
  have hne : name.codes ≠ [] := mt WideText.eq_empty_iff.2 hname
  have hlast : (path ++ name).codes.getLast?.all (· == '/'.toNat) = false := by
    rw [WideText.codes_append, List.getLast?_append_of_ne_nil _ hne,
      List.getLast?_eq_some_getLast hne, Option.all_some, beq_eq_false_iff_ne]
    rintro heq
    rw [← heq] at hslash
    exact hslash (List.getLast_mem hne)
  rw [slashed, hlast, if_neg Bool.false_ne_true]

theorem spelled_cons (directory : WideText) (directories : List WideText) (name : WideText) :
    spelled ⟨directory :: directories, name⟩ =
      directory.codes ++ '/'.toNat :: spelled ⟨directories, name⟩ := by
  simp [spelled]

theorem codes_path {a : Address} (h : a.IsPlain) (start : WideText) :
    (a.path start).codes = (slashed start).codes ++ a.spelled := by
  obtain ⟨directories, name⟩ := a
  induction directories generalizing start with
  | nil => exact WideText.codes_append (slashed start) name
  | cons directory directories ih =>
    obtain ⟨hdirectory, hrest⟩ := List.forall_mem_cons.1 h
    calc (Address.path start ⟨directory :: directories, name⟩).codes
      _ = (Address.path (slashed start ++ directory) ⟨directories, name⟩).codes := rfl
      _ = (slashed (slashed start ++ directory)).codes ++ spelled ⟨directories, name⟩ :=
        ih _ hrest
      _ = (slashed start).codes ++ spelled ⟨directory :: directories, name⟩ := by
        rw [slashed_append _ hdirectory.1 hdirectory.2, spelled_cons]
        simp

theorem spelled_ne_spelled_cons {name : WideText} (h : IsPlain ⟨[], name⟩) (directory : WideText)
    (directories : List WideText) (other : WideText) :
    spelled ⟨[], name⟩ ≠ spelled ⟨directory :: directories, other⟩ := by
  have hslash : '/'.toNat ∉ spelled ⟨[], name⟩ := (h name List.mem_cons_self).2
  rintro heq
  rw [heq, spelled_cons] at hslash
  exact hslash (List.mem_append_right _ List.mem_cons_self)

/--
As no name has a slash, the slashes tell the names apart.
-/
theorem spelled_inj {a b : Address} (ha : a.IsPlain) (hb : b.IsPlain) (h : a.spelled = b.spelled) :
    a = b := by
  obtain ⟨as, name⟩ := a
  obtain ⟨bs, other⟩ := b
  induction as generalizing bs with
  | nil =>
    cases bs with
    | nil =>
      have hname : name = other := WideText.ext h
      rw [hname]
    | cons directory bs => exact absurd h (spelled_ne_spelled_cons ha _ _ _)
  | cons directory as ih =>
    cases bs with
    | nil => exact absurd h.symm (spelled_ne_spelled_cons hb _ _ _)
    | cons directory' bs =>
      obtain ⟨hdirectory, has⟩ := List.forall_mem_cons.1 ha
      obtain ⟨hdirectory', hbs⟩ := List.forall_mem_cons.1 hb
      rw [spelled_cons, spelled_cons, append_cons_inj_of_notMem hdirectory.2 hdirectory'.2] at h
      obtain ⟨hsame, hrest⟩ := h
      cases WideText.ext hsame
      cases ih has _ hbs hrest
      rfl

theorem path_inj {a b : Address} (ha : a.IsPlain) (hb : b.IsPlain) {start : WideText}
    (h : a.path start = b.path start) : a = b := by
  have hspelled : (slashed start).codes ++ a.spelled = (slashed start).codes ++ b.spelled := by
    rw [← codes_path ha, ← codes_path hb, h]
  exact spelled_inj ha hb (List.append_cancel_left hspelled)

end Address

theorem FileTree.PlainNames.isPlain {place : FileTree} {a : Address} (hplain : place.PlainNames)
    (h : place.Holds a) : a.IsPlain := by
  induction h with
  | file h =>
    obtain ⟨hnames, _⟩ := eachDirectory_directory_iff.1 hplain
    exact List.forall_mem_singleton.2 (hnames _ h)
  | deeper he _ ih =>
    obtain ⟨hnames, hentries⟩ := eachDirectory_directory_iff.1 hplain
    exact List.forall_mem_cons.2 ⟨hnames _ he, ih (hentries _ he)⟩

end MigrationLint
