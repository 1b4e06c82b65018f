import Mathlib.Data.List.Permutation
import Mathlib.Data.String.Basic
import MigrationLint.ParseTree.RowText
import MigrationLint.Proofs.FileTree.Leads

/-!
This module contains file systems whose directories are listed in another order, and what a
discovery finds in them. Paths lead to the same places in both, and the files below a place are
listed in the order of their addresses, whatever the order of the entries is.
-/

namespace MigrationLint

namespace FileTree

/--
The same tree of files, with the entries of each directory in any order.
-/
inductive Relisted : FileTree → FileTree → Prop where
  | file (name : WideText) (source : SourceFile) : Relisted (file name source) (file name source)
  | directory (name : WideText) {entries moved others : List FileTree} (hperm : entries.Perm moved)
    (hentries : List.Forall₂ Relisted moved others) :
    Relisted (directory name entries) (directory name others)

section Relisted

variable {p q e : FileTree}

theorem Relisted.name_eq (h : Relisted p q) : p.name = q.name := by
  cases h <;> rfl

theorem Relisted.isDirectory_eq (h : Relisted p q) : p.isDirectory = q.isDirectory := by
  cases h <;> rfl

theorem Relisted.exists_right (h : Relisted p q) (he : e ∈ p.entries) :
    ∃ f ∈ q.entries, Relisted e f := by
  cases h with
  | file name source => cases he
  | directory name hperm hentries => exact exists_of_forall₂ hentries (hperm.mem_iff.1 he)

theorem Relisted.exists_left (h : Relisted p q) (he : e ∈ q.entries) :
    ∃ f ∈ p.entries, Relisted f e := by
  cases h with
  | file name source => cases he
  | directory name hperm hentries =>
    obtain ⟨f, hf, hrelisted⟩ := exists_of_forall₂ hentries.flip he
    exact ⟨f, hperm.mem_iff.2 hf, hrelisted⟩

theorem Relisted.distinctNames (h : Relisted p q) (hp : p.DistinctNames) : q.DistinctNames := by
  induction hp generalizing q with
  | file name source =>
    cases h
    exact .file name source
  | directory name hnames _ ih =>
    have hright := fun e => h.exists_left (e := e)
    cases h with
    | directory _ hperm hentries =>
      refine .directory name ?_ ?_
      . have hsame := map_eq_of_forall₂ hentries fun a _ b hab =>
          congrArg WideText.encoded hab.name_eq
        rw [← hsame]
        exact (hperm.map _).nodup_iff.1 hnames
      . intro f hf
        obtain ⟨e, he, hrelisted⟩ := hright f hf
        exact ih e he hrelisted

theorem Relisted.holds_right {a : Address} (h : Relisted p q) (hp : p.Holds a) : q.Holds a := by
  induction hp generalizing q with
  | file hmem =>
    obtain ⟨f, hf, hrelisted⟩ := h.exists_right hmem
    cases hrelisted
    cases h
    exact .file hf
  | deeper he _ ih =>
    obtain ⟨f, hf, hrelisted⟩ := h.exists_right he
    rw [hrelisted.name_eq]
    cases h
    exact .deeper hf (ih hrelisted)

theorem Relisted.holds_left {a : Address} (h : Relisted p q) (hq : q.Holds a) : p.Holds a := by
  induction hq generalizing p with
  | file hmem =>
    obtain ⟨f, hf, hrelisted⟩ := h.exists_left hmem
    cases hrelisted
    cases h
    exact .file hf
  | deeper he _ ih =>
    obtain ⟨f, hf, hrelisted⟩ := h.exists_left he
    rw [← hrelisted.name_eq]
    cases h
    exact .deeper hf (ih hrelisted)

theorem Relisted.lists_iff (h : Relisted p q) (a : Address) : p.Lists a ↔ q.Lists a :=
  ⟨fun ⟨hholds, hsource, hkept⟩ => ⟨h.holds_right hholds, hsource, hkept⟩,
    fun ⟨hholds, hsource, hkept⟩ => ⟨h.holds_left hholds, hsource, hkept⟩⟩

/--
The order in which the entries of directories are listed does not matter for what is below a place.
-/
theorem Relisted.sourcesBelow_eq (h : Relisted p q) (hp : p.DistinctNames) (path : WideText) :
    sourcesBelow path p = sourcesBelow path q := by
  obtain ⟨as, has, hpaths⟩ := exists_addresses hp
  obtain ⟨bs, hbs, hothers⟩ := exists_addresses (h.distinctNames hp)
  have hsame : as = bs := by
    apply Address.eq_of_pairwise has.ascending hbs.ascending
    intro a
    rw [has.mem_iff, hbs.mem_iff, h.lists_iff]
  rw [hpaths, hothers, hsame]

end Relisted

/--
Both trees have distinct names, and are the same but for the order of the entries.
-/
structure Alike (p q : FileTree) : Prop where
  relisted : Relisted p q
  distinctNames : p.DistinctNames

/--
The same error, or places that are alike.
-/
inductive AlikeResult : Except AccessError FileTree → Except AccessError FileTree → Prop where
  | error (e : AccessError) : AlikeResult (.error e) (.error e)
  | ok {p q : FileTree} (h : Alike p q) : AlikeResult (.ok p) (.ok q)

section Alike

variable {p q : FileTree}

theorem Alike.rel_entryNamed? (h : Alike p q) (name : WideText) :
    Option.Rel Alike (p.entryNamed? name) (q.entryNamed? name) := by
  have hq := h.relisted.distinctNames h.distinctNames
  cases hfind : p.entryNamed? name with
  | some e =>
    obtain ⟨he, hname⟩ := h.distinctNames.entryNamed?_eq_some_iff.1 hfind
    obtain ⟨f, hf, hrelisted⟩ := h.relisted.exists_right he
    rw [hq.entryNamed?_eq_some_iff.2 ⟨hf, hrelisted.name_eq ▸ hname⟩]
    exact .some ⟨hrelisted, h.distinctNames.of_mem_entries he⟩
  | none =>
    have hnone : q.entryNamed? name = none := by
      rw [entryNamed?, List.find?_eq_none] at hfind ⊢
      intro f hf
      obtain ⟨e, he, hrelisted⟩ := h.relisted.exists_left hf
      rw [← hrelisted.name_eq]
      exact hfind e he
    rw [hnone]
    exact .none

/--
Components lead from places that are alike, below places that are alike, to places that are.
-/
theorem Alike.follow {above others : List FileTree} (h : Alike p q)
    (habove : List.Forall₂ Alike above others) (components : List WideText) :
    AlikeResult (follow p above components) (follow q others components) := by
  induction components generalizing p q above others with
  | nil => exact .ok h
  | cons component later ih =>
    unfold FileTree.follow
    rw [← h.relisted.isDirectory_eq]
    split
    . exact .error _
    . split
      . exact ih h habove
      . split
        . cases habove with
          | nil => exact ih h .nil
          | cons hparent habove => exact ih hparent habove
        . have hentry := h.rel_entryNamed? component
          generalize p.entryNamed? component = found at hentry ⊢
          generalize q.entryNamed? component = other at hentry ⊢
          cases hentry with
          | none => exact .error _
          | some hentry => exact ih hentry (.cons h habove)

end Alike

end FileTree

namespace FileSystem

open FileTree

/--
Both file systems have the same working directory, and trees that are alike.
-/
structure Alike (s t : FileSystem) : Prop where
  root : FileTree.Alike s.root t.root
  working : s.working = t.working

section Alike

variable {s t : FileSystem}

theorem Alike.components_eq (h : Alike s t) (path : WideText) :
    s.components path = t.components path := by
  rw [components, components, h.working]

theorem Alike.resolve (h : Alike s t) (path : WideText) :
    AlikeResult (s.resolve path) (t.resolve path) := by
  rw [FileSystem.resolve, FileSystem.resolve, h.components_eq]
  split
  . exact .error _
  . split
    . exact .error _
    . split
      . exact .error _
      . exact h.root.follow .nil _

theorem Alike.discover (h : Alike s t) (path : WideText) : s.discover path = t.discover path := by
  have hresolve := h.resolve path
  unfold FileSystem.discover
  generalize s.resolve path = result at hresolve ⊢
  generalize t.resolve path = other at hresolve ⊢
  cases hresolve with
  | error e => rfl
  | @ok place place' hplace =>
    have hsame := hplace.relisted.sourcesBelow_eq hplace.distinctNames path
    cases hplace.relisted with
    | file name source => rfl
    | directory name hperm hentries => exact hsame

end Alike

/--
The paths that stand for a path: those of the files to list below it, or itself alone.
-/
inductive StandFor (system : FileSystem) (path : WideText) : List WideText → Prop where
  | itself (h : ∀ name entries, ¬ system.LeadsTo path (.directory name entries)) :
    StandFor system path [path]
  | below {name : WideText} {entries : List FileTree} {addresses : List Address}
    (hplace : system.LeadsTo path (.directory name entries))
    (haddresses : (directory name entries).ListsInOrder addresses) :
    StandFor system path (addresses.map (·.path path))

variable {system : FileSystem}

theorem standFor_discover (h : system.root.DistinctNames) (path : WideText) :
    system.StandFor path (system.discover path) := by
  rw [discover]
  split
  . next name entries hplace =>
    have hdistinct := of_resolve (fun _ hp _ he => hp.of_mem_entries he) h hplace
    obtain ⟨addresses, haddresses, hpaths⟩ := exists_addresses hdistinct
    rw [hpaths]
    exact .below ((resolve_eq_ok_iff_leadsTo h).1 hplace) haddresses
  . next hplace =>
    apply StandFor.itself
    intro name entries hleads
    exact hplace name entries ((resolve_eq_ok_iff_leadsTo h).2 hleads)

theorem StandFor.nodup {path : WideText} {listing : List WideText}
    (h : system.StandFor path listing) (hdistinct : system.root.DistinctNames)
    (hplain : system.root.PlainNames) : listing.Nodup := by
  cases h with
  | itself => exact List.nodup_singleton path
  | below hplace haddresses =>
    have hresolve := (resolve_eq_ok_iff_leadsTo hdistinct).2 hplace
    have hplain := of_resolve (fun _ hp _ he => hp.of_mem_entries he) hplain hresolve
    apply List.Nodup.map_on _ (Address.nodup_of_pairwise haddresses.ascending)
    intro a ha b hb hpath
    have isPlain {c : Address} (hc : c ∈ _) := hplain.isPlain ((haddresses.mem_iff c).1 hc).holds
    exact Address.path_inj (isPlain ha) (isPlain hb) hpath

/--
Each path stands for itself or for the files to list below it, in the order of their addresses, and
no file is listed twice. The order in which the entries of directories are listed does not matter.
-/
theorem discoverAll_standFor (system : FileSystem) (paths : List WideText)
    (h : system.root.DistinctNames) :
    ∃ listings, List.Forall₂ system.StandFor paths listings
      ∧ system.discoverAll paths = listings.flatten
      ∧ (system.root.PlainNames → ∀ listing ∈ listings, listing.Nodup)
      ∧ ∀ other, Relisted system.root other →
        FileSystem.discoverAll ⟨other, system.working⟩ paths = system.discoverAll paths := by
  have hstand : List.Forall₂ system.StandFor paths (paths.map system.discover) :=
    forall₂_map fun path _ => standFor_discover h path
  refine ⟨paths.map system.discover, hstand, rfl, ?_, ?_⟩
  . intro hplain listing hlisting
    obtain ⟨path, _, rfl⟩ := List.mem_map.1 hlisting
    exact (standFor_discover h path).nodup h hplain
  . intro other hother
    have halike : Alike system ⟨other, system.working⟩ := ⟨⟨hother, h⟩, rfl⟩
    rw [discoverAll, discoverAll]
    exact List.flatMap_congr fun path _ => (halike.discover path).symm

def emptyFile (name : WideText) : FileTree :=
  .file name ⟨true, .empty, .unparsed⟩

/--
Files of an application and of a vendor in the working directory `/srv/site`.
-/
def vendoredSystem : FileSystem where
  root := .directory "" [.directory "srv" [.directory "site" [
    .directory "vendor" [emptyFile "v.rb"],
    .directory "app" [
      emptyFile "b.rb",
      .directory "z" [emptyFile "k.rb", .directory "vendor" [emptyFile "no.rb"]],
      .directory "x.rb" [emptyFile "in.rb"],
      emptyFile "A.rb",
      emptyFile "notes.txt"]]]]
  working := ["srv", "site"]

/--
The same files, with the entries of each directory in the opposite order.
-/
def vendoredReversed : FileTree :=
  .directory "" [.directory "srv" [.directory "site" [
    .directory "app" [
      emptyFile "notes.txt",
      emptyFile "A.rb",
      .directory "x.rb" [emptyFile "in.rb"],
      .directory "z" [.directory "vendor" [emptyFile "no.rb"], emptyFile "k.rb"],
      emptyFile "b.rb"],
    .directory "vendor" [emptyFile "v.rb"]]]]

theorem relisted_of_reverse (name : WideText) {entries others : List FileTree}
    (h : List.Forall₂ Relisted entries.reverse others) :
    Relisted (.directory name entries) (.directory name others) :=
  .directory name (List.reverse_perm entries).symm h

theorem relisted_vendoredSystem : Relisted vendoredSystem.root vendoredReversed := by
  have hfile (name : WideText) : Relisted (emptyFile name) (emptyFile name) := .file name _
  have hsingle (name file : WideText) :
      Relisted (.directory name [emptyFile file]) (.directory name [emptyFile file]) :=
    .directory name (.refl _) (.cons (hfile file) .nil)
  refine relisted_of_reverse "" (.cons (relisted_of_reverse "srv" (.cons ?_ .nil)) .nil)
  apply relisted_of_reverse
  refine .cons ?_ (.cons (hsingle "vendor" "v.rb") .nil)
  apply relisted_of_reverse
  refine .cons (hfile _) (.cons (hfile _) (.cons (hsingle _ _) (.cons ?_ (.cons (hfile _) .nil))))
  exact relisted_of_reverse "z" (.cons (hsingle _ _) (.cons (hfile _) .nil))

theorem discoverAll_vendoredSystem :
    let paths : List WideText := ["vendor", "app", "app/b.rb", "app/missing.rb", "app/z/",
      "/srv/site/vendor", "../site/app/z"]
    let found : List WideText := ["vendor/v.rb", "app/A.rb", "app/b.rb", "app/x.rb/in.rb",
      "app/z/k.rb", "app/b.rb", "app/missing.rb", "app/z/k.rb", "/srv/site/vendor/v.rb",
      "../site/app/z/k.rb"]
    vendoredSystem.root.DistinctNames
      ∧ (∃ listings, List.Forall₂ vendoredSystem.StandFor paths listings
        ∧ found = listings.flatten ∧ ∀ listing ∈ listings, listing.Nodup)
      ∧ FileSystem.discoverAll ⟨vendoredReversed, vendoredSystem.working⟩ paths = found := by
  intro paths found
  have hdistinct : vendoredSystem.root.DistinctNames := by
    simp [vendoredSystem, emptyFile, name, eachDirectory_directory_iff, eachDirectory_file]
    decide
  have hplain : vendoredSystem.root.PlainNames := by
    simp [vendoredSystem, emptyFile, name, eachDirectory_directory_iff, eachDirectory_file]
    decide
  have hfound : vendoredSystem.discoverAll paths = found := by
    -- The contents of the files do not matter.
    unfold vendoredSystem emptyFile
    generalize (⟨true, .empty, .unparsed⟩ : SourceFile) = source
    cbv
  obtain ⟨listings, hlistings, hall, hnodup, hrelisted⟩ :=
    discoverAll_standFor vendoredSystem paths hdistinct
  rw [hfound] at hall hrelisted
  exact ⟨hdistinct, ⟨listings, hlistings, hall, hnodup hplain⟩,
    hrelisted _ relisted_vendoredSystem⟩

end FileSystem

end MigrationLint
