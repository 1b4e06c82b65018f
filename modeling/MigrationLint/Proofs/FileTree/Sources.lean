import MigrationLint.FileTree.Reading
import MigrationLint.Node.OfParseTree

/-!
This module contains the source files of a tree of files. What a path leads to in a file system is
part of its tree, so whatever is read is one of its source files.
-/

namespace MigrationLint

namespace FileTree

mutual

def sources : FileTree → List SourceFile
  | file _ source => [source]
  | directory _ entries => sourcesOf entries

def sourcesOf : List FileTree → List SourceFile
  | [] => []
  | e :: es => sources e ++ sourcesOf es

end

variable {place p : FileTree}

theorem sources_subset_sourcesOf {es : List FileTree} (h : p ∈ es) :
    p.sources ⊆ sourcesOf es := by
  induction es with
  | nil => cases h
  | cons e es ih =>
    rw [sourcesOf]
    cases h with
    | head => exact List.subset_append_left _ _
    | tail _ h => exact List.subset_append_of_subset_right _ (ih h)

theorem sources_subset_of_mem_entries (h : p ∈ place.entries) : p.sources ⊆ place.sources := by
  cases place with
  | file name source => cases h
  | directory name entries =>
    rw [sources]
    exact sources_subset_sourcesOf h

theorem mem_entries_of_entryNamed? {name : WideText} (h : place.entryNamed? name = some p) :
    p ∈ place.entries :=
  List.mem_of_find?_eq_some h

/--
Whatever is followed, one stays among the places that one starts from and what is below them. So
what holds of these, and of the entries of what it holds of, holds of the place that one gets to.
-/
theorem of_follow {P : FileTree → Prop} (hentries : ∀ p, P p → ∀ e ∈ p.entries, P e)
    {above : List FileTree} {components : List WideText} (hplace : P place)
    (habove : ∀ q ∈ above, P q) (h : follow place above components = .ok p) : P p := by
  induction components generalizing place above with
  | nil =>
    cases h
    exact hplace
  | cons component later ih =>
    unfold follow at h
    split at h
    . cases h
    . split at h
      . exact ih hplace habove h
      . split at h
        . cases above with
          | nil => exact ih hplace habove h
          | cons parent above =>
            obtain ⟨hparent, habove⟩ := List.forall_mem_cons.1 habove
            exact ih hparent habove h
        . split at h
          . next entry hentry =>
            have hmem := mem_entries_of_entryNamed? hentry
            exact ih (hentries _ hplace entry hmem) (List.forall_mem_cons.2 ⟨hplace, habove⟩) h
          . cases h

end FileTree

namespace FileSystem

variable {system : FileSystem} {path : WideText} {p : FileTree} {source : SourceFile}

theorem resolve_eq_ok_iff :
    system.resolve path = .ok p ↔
      path.isEncodable ∧ 0 ∉ path.codes ∧ path ≠ ""
        ∧ system.root.follow [] (system.components path) = .ok p := by
  rw [resolve]
  split
  . next hencoded => exact iff_of_false nofun fun h => by simp [h.1] at hencoded
  . next hencoded =>
    split
    . next hnull => exact iff_of_false nofun fun h => h.2.1 hnull
    . next hnull =>
      split
      . next hempty => exact iff_of_false nofun fun h => h.2.2.1 hempty
      . next hempty =>
        have hencoded : path.isEncodable := by simpa using hencoded
        simp [hencoded, hnull, hempty]

theorem of_resolve {P : FileTree → Prop} (hentries : ∀ p, P p → ∀ e ∈ p.entries, P e)
    (hroot : P system.root) (h : system.resolve path = .ok p) : P p := by
  obtain ⟨_, _, _, hfollow⟩ := resolve_eq_ok_iff.1 h
  exact FileTree.of_follow hentries hroot (List.forall_mem_nil _) hfollow

theorem sources_resolve (h : system.resolve path = .ok p) : p.sources ⊆ system.root.sources := by
  refine of_resolve (P := fun p => p.sources ⊆ system.root.sources) ?_ (List.Subset.refl _) h
  intro p hp e he
  exact List.Subset.trans (FileTree.sources_subset_of_mem_entries he) hp

theorem mem_sources_of_openFile (h : system.openFile path = .ok source) :
    source ∈ system.root.sources := by
  rw [openFile] at h
  split at h
  . cases h
  . cases h
  . next name file hresolve =>
    split at h
    . cases h
      apply sources_resolve hresolve
      simp [FileTree.sources]
    . cases h

theorem mem_sources_of_readSource (h : system.readSource path = .ok source) :
    source ∈ system.root.sources := by
  rw [readSource] at h
  split at h
  . cases h
  . split at h
    . cases h
    . split at h
      . next hopen =>
        cases h
        exact mem_sources_of_openFile hopen
      . cases h

/--
Every parse tree has a root that is converted. A parser gives such trees, whatever it parses.
-/
def IsParsed (system : FileSystem) : Prop :=
  ∀ source ∈ system.root.sources, ¬ source.parse.isTrivia

end FileSystem

end MigrationLint
