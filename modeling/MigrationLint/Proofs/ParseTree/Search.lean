import Mathlib.Data.List.Nodup
import Mathlib.Logic.Relation
import MigrationLint.ParseTree.Locals
import MigrationLint.Proofs.List

/-!
This module contains the search for the names that a tree binds. A search holds the rows that are
still to be served and the names so far. Any of the rows may be served next, and its named children
may come to stand anywhere among the others. Every search of a tree ends, and in whatever order the
rows are served it ends with the names that are bound by the rows to which named children lead. The
loop of `localNames` is the search that serves the row that came last.
-/

namespace MigrationLint

namespace ParseTree

/--
Named children lead from a tree to a row.
-/
def Reaches : ParseTree → ParseTree → Prop :=
  Relation.ReflTransGen fun parent c => c ∈ parent.namedChildren

variable {t parent row : ParseTree} {name : String}

theorem Reaches.refl (t : ParseTree) : t.Reaches t :=
  Relation.ReflTransGen.refl

theorem Reaches.tail (h : t.Reaches parent) (hrow : row ∈ parent.namedChildren) : t.Reaches row :=
  Relation.ReflTransGen.tail h hrow

theorem reaches_iff : t.Reaches row ↔ row = t ∨ ∃ c ∈ t.namedChildren, c.Reaches row :=
  Relation.ReflTransGen.cases_head_iff.trans (or_congr_left eq_comm)

theorem exists_reaches_iff {P : ParseTree → Prop} :
    (∃ row, t.Reaches row ∧ P row) ↔ P t ∨ ∃ c ∈ t.namedChildren, ∃ row, c.Reaches row ∧ P row := by
  simp only [reaches_iff (t := t), or_and_right, exists_or, exists_eq_left]
  apply or_congr_right
  constructor
  . rintro ⟨row, ⟨c, hc, hrow⟩, hP⟩
    exact ⟨c, hc, row, hrow, hP⟩
  . rintro ⟨c, hc, row, hrow, hP⟩
    exact ⟨row, ⟨c, hc, hrow⟩, hP⟩

theorem sizes_perm {ts us : List ParseTree} (h : ts.Perm us) : sizes ts = sizes us := by
  induction h with
  | nil => rfl
  | cons t _ ih => simp only [sizes, ih]
  | swap t u ts => simp only [sizes]; omega
  | trans _ _ ih₁ ih₂ => rw [ih₁, ih₂]

def addNames (t : ParseTree) (names : List String) : List String :=
  t.ownNames.foldl (fun names name => names.insert name) names

/--
A search for names: the rows that are still to be served, and the names that were found.
-/
structure Search where
  pending : List ParseTree
  names : List String

namespace Search

def start (t : ParseTree) : Search := ⟨[t], []⟩

inductive Step : Search → Search → Prop where
  | serve {before after pending : List ParseTree} {t : ParseTree} {names : List String}
      (h : pending.Perm (t.namedChildren ++ (before ++ after))) :
      Step ⟨before ++ t :: after, names⟩ ⟨pending, t.addNames names⟩

abbrev Run : Search → Search → Prop :=
  Relation.ReflTransGen Step

variable {s next : Search}

theorem step_first {rest pending : List ParseTree} {names : List String}
    (h : pending.Perm (t.namedChildren ++ rest)) :
    Step ⟨t :: rest, names⟩ ⟨pending, t.addNames names⟩ :=
  @Step.serve [] rest pending t names h

theorem exists_step (h : s.pending ≠ []) : ∃ next, Step s next := by
  obtain ⟨pending, names⟩ := s
  cases pending with
  | nil => exact absurd rfl h
  | cons t pending => exact ⟨_, step_first (List.Perm.refl _)⟩

theorem Step.sizes_lt (h : Step s next) : sizes next.pending < sizes s.pending := by
  cases h with
  | @serve before after pending t names hpending =>
    have := sizes_namedChildren_lt t
    have hsizes := sizes_perm hpending
    simp only [sizes_append, sizes] at hsizes ⊢
    omega

theorem wellFounded_step : WellFounded fun next s : Search => Step s next := by
  apply Subrelation.wf (r := InvImage (· < ·) fun s : Search => sizes s.pending)
  . intro next s h
    exact h.sizes_lt
  . exact InvImage.wf _ Nat.lt_wfRel.wf

/--
A name that was found, or that one of the rows that are to be served leads to.
-/
def Yields (s : Search) (name : String) : Prop :=
  name ∈ s.names ∨ ∃ t ∈ s.pending, ∃ row, t.Reaches row ∧ name ∈ row.ownNames

theorem Step.yields_iff (h : Step s next) : next.Yields name ↔ s.Yields name := by
  cases h with
  | @serve before after pending t names hpending =>
    -- Serving a row turns what it leads to into its own names and what its named children lead to.
    have hroot := exists_reaches_iff (t := t) (P := fun row => name ∈ row.ownNames)
    simp only [Yields, addNames, mem_foldl_insert, hpending.mem_iff, List.mem_append, List.mem_cons,
      or_and_right, exists_or, exists_eq_left, hroot, or_assoc]
    simp only [or_left_comm]

theorem Run.yields_iff (h : Run s next) : next.Yields name ↔ s.Yields name := by
  induction h with
  | refl => rfl
  | tail _ hstep ih => exact hstep.yields_iff.trans ih

theorem mem_names_of_run (h : Run (start t) s) (hdone : s.pending = []) :
    name ∈ s.names ↔ ∃ row, t.Reaches row ∧ name ∈ row.ownNames := by
  have hyields : s.Yields name ↔ (start t).Yields name := h.yields_iff
  simpa [Yields, start, hdone] using hyields

theorem Run.nodup (h : Run s next) (hs : s.names.Nodup) : next.names.Nodup := by
  induction h with
  | refl => exact hs
  | tail _ hstep ih =>
    cases hstep with
    | serve => exact nodup_foldl_insert ih

theorem run_go (stack : List ParseTree) (names : List String) :
    Run ⟨stack, names⟩ ⟨[], localNames.go stack names⟩ := by
  fun_induction localNames.go stack names with
  | case1 names => exact .refl
  | case2 names t stack ih =>
    refine .head (step_first ?_) ih
    apply List.Perm.append_right
    apply List.reverse_perm

theorem run_localNames (t : ParseTree) : Run (start t) ⟨[], t.localNames⟩ :=
  run_go [t] []

end Search

theorem mem_localNames_iff :
    name ∈ t.localNames ↔ ∃ row, t.Reaches row ∧ name ∈ row.ownNames :=
  Search.mem_names_of_run (Search.run_localNames t) rfl

theorem nodup_localNames (t : ParseTree) : t.localNames.Nodup :=
  (Search.run_localNames t).nodup List.nodup_nil

/--
A row binds a name: as the target of an assignment, as an identifier in a container, as a parameter
with a name of its own, or as the variable of a loop.
-/
inductive Binds (t : ParseTree) : String → Prop where
  | target {left : ParseTree} (htype : t.type = "assignment" ∨ t.type = "operator_assignment")
      (hleft : t.child? "left" = some left) (hidentifier : left.isIdentifier) : Binds t left.text
  | contained {c : ParseTree} (htype : t.type ∈ bindingContainers) (hc : c ∈ t.namedChildren)
      (hidentifier : c.isIdentifier) : Binds t c.text
  | parameter {c : ParseTree} (htype : t.type ∈ namedParameters)
      (hname : t.child? "name" = some c) : Binds t c.text
  | loop {c : ParseTree} (htype : t.type = "for") (hpattern : t.child? "pattern" = some c)
      (hidentifier : c.isIdentifier) : Binds t c.text

theorem of_mem_bindingContainers :
    ∀ type ∈ bindingContainers, ¬ (type = "assignment" ∨ type = "operator_assignment") := by
  decide

theorem of_mem_namedParameters : ∀ type ∈ namedParameters,
    ¬ (type = "assignment" ∨ type = "operator_assignment") ∧ type ∉ bindingContainers := by
  decide

theorem ownNames_container (h : parent.type ∈ bindingContainers) :
    parent.ownNames = (parent.namedChildren.filter isIdentifier).map text := by
  rw [ownNames, if_neg (of_mem_bindingContainers _ h), if_pos h]

theorem mem_identifierIn_iff {field : String} :
    name ∈ t.identifierIn field ↔
      ∃ c, t.child? field = some c ∧ c.isIdentifier ∧ c.text = name := by
  simp [identifierIn, Option.filter_eq_some_iff, and_assoc]

theorem Binds.mem_ownNames (h : t.Binds name) : name ∈ t.ownNames := by
  cases h with
  | target htype hleft hidentifier =>
    rw [ownNames, if_pos htype, mem_identifierIn_iff]
    exact ⟨_, hleft, hidentifier, rfl⟩
  | contained htype hc hidentifier =>
    rw [ownNames_container htype]
    apply List.mem_map_of_mem
    exact List.mem_filter.2 ⟨hc, hidentifier⟩
  | parameter htype hname =>
    obtain ⟨hassignment, hcontainer⟩ := of_mem_namedParameters _ htype
    rw [ownNames, if_neg hassignment, if_neg hcontainer, if_pos htype, hname]
    apply List.mem_singleton_self
  | loop htype hpattern hidentifier =>
    rw [ownNames, if_neg (by simp [htype]), if_neg (by rw [htype]; decide),
      if_neg (by rw [htype]; decide), if_pos htype, mem_identifierIn_iff]
    exact ⟨_, hpattern, hidentifier, rfl⟩

theorem binds_of_mem_ownNames (h : name ∈ t.ownNames) : t.Binds name := by
  unfold ownNames at h
  split at h
  . next htype =>
    obtain ⟨left, hleft, hidentifier, rfl⟩ := mem_identifierIn_iff.1 h
    exact .target htype hleft hidentifier
  . split at h
    . next htype =>
      obtain ⟨c, hc, rfl⟩ := List.mem_map.1 h
      obtain ⟨hc, hidentifier⟩ := List.mem_filter.1 hc
      exact .contained htype hc hidentifier
    . split at h
      . next htype =>
        obtain ⟨c, hname, rfl⟩ := List.mem_map.1 h
        exact .parameter htype (Option.mem_toList.1 hname)
      . split at h
        . next htype =>
          obtain ⟨c, hpattern, hidentifier, rfl⟩ := mem_identifierIn_iff.1 h
          exact .loop htype hpattern hidentifier
        . cases h

theorem binds_iff : t.Binds name ↔ name ∈ t.ownNames :=
  ⟨Binds.mem_ownNames, binds_of_mem_ownNames⟩

theorem mem_localNames_iff_binds :
    name ∈ t.localNames ↔ ∃ row, t.Reaches row ∧ row.Binds name := by
  simp only [mem_localNames_iff, binds_iff]

/--
The search of a tree ends in whatever order it serves the rows, and it finds the names of all rows
that named children lead to: those that the root binds, and those of its named children.
-/
theorem localNames_anyOrder (t : ParseTree) :
    t.localNames.Nodup
    ∧ (∀ name, name ∈ t.localNames ↔ ∃ row, t.Reaches row ∧ row.Binds name)
    ∧ (∀ name, name ∈ t.localNames ↔
        t.Binds name ∨ ∃ c ∈ t.namedChildren, name ∈ c.localNames)
    ∧ (Search.Run (.start t) ⟨[], t.localNames⟩)
    ∧ Acc (fun next s => Search.Step s next) (.start t)
    ∧ ∀ s, Search.Run (.start t) s →
        (s.pending ≠ [] → ∃ next, Search.Step s next)
        ∧ (s.pending = [] → s.names.Perm t.localNames) := by
  refine ⟨t.nodup_localNames, ?_, ?_, Search.run_localNames t, ?_, ?_⟩
  . intro name
    exact mem_localNames_iff_binds
  . intro name
    simp only [mem_localNames_iff_binds]
    exact exists_reaches_iff
  . exact Search.wellFounded_step.apply _
  . intro s hrun
    refine ⟨Search.exists_step, ?_⟩
    intro hdone
    rw [List.perm_ext_iff_of_nodup (hrun.nodup List.nodup_nil) t.nodup_localNames]
    intro name
    rw [Search.mem_names_of_run hrun hdone, mem_localNames_iff]

def assignNumber (name : String) : ParseTree :=
  namedRow "assignment" (name ++ " = 1") none 0
    [namedRow "identifier" name (some "left") 0 [], namedRow "integer" "1" (some "right") 0 []]

def assignTwice : ParseTree :=
  namedRow "program" "a = 1; b = 1" none 0 [assignNumber "a", assignNumber "b"]

theorem localNames_assignTwice :
    ∃ s, Search.Run (.start assignTwice) s ∧ s.pending = [] ∧ s.names = ["b", "a"]
      ∧ assignTwice.localNames = ["a", "b"] ∧ s.names.Perm assignTwice.localNames := by
  have hrun : ∃ s, Search.Run (.start assignTwice) s ∧ s.pending = [] ∧ s.names = ["b", "a"] := by
    refine ⟨?last, ?run, ?done, ?names⟩
    case run =>
      -- The tree has seven rows, and the one that stands first is served each time.
      iterate 7 refine .head (Search.step_first (List.Perm.refl _)) ?_
      exact .refl
    case done => rfl
    case names => decide +kernel
  obtain ⟨s, hrun, hdone, hnames⟩ := hrun
  refine ⟨s, hrun, hdone, hnames, by decide +kernel, ?_⟩
  exact ((localNames_anyOrder assignTwice).2.2.2.2.2 s hrun).2 hdone

end ParseTree

end MigrationLint
