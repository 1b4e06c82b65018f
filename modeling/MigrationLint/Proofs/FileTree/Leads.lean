import MigrationLint.Proofs.FileTree.Address
import MigrationLint.Proofs.FileTree.Sources

/-!
This module contains what it is for a path to lead to a place, as a relation between the components
of the path and the directories on the way. Where no directory has two entries of one name, a path
leads to the place that it is resolved to, and to no other.
-/

namespace MigrationLint

/--
Components stand in a path with a slash between each two of them.
-/
structure WideText.HasComponents (path : WideText) (components : List WideText) : Prop where
  codes_eq : path.codes = ['/'.toNat].intercalate (components.map (·.codes))
  notMem : ∀ component ∈ components, '/'.toNat ∉ component.codes

theorem WideText.hasComponents_iff {path : WideText} {components : List WideText}
    (hpath : path ≠ "") : path.HasComponents components ↔ path.splitAt '/' = components := by
  constructor
  . rintro ⟨hcodes, hnotMem⟩
    have hne : components.map (·.codes) ≠ [] := by
      intro hnil
      rw [hnil] at hcodes
      exact hpath (eq_empty_iff.2 hcodes)
    have hslash : ∀ codes ∈ components.map (·.codes), '/'.toNat ∉ codes := by
      simpa using hnotMem
    rw [splitAt, hcodes, List.splitOn_intercalate _ hslash hne, List.map_map]
    exact List.map_id _
  . rintro rfl
    have hparts : (path.splitAt '/').map (·.codes) = path.codes.splitOn '/'.toNat := by
      rw [splitAt, List.map_map]
      exact List.map_id _
    constructor
    . rw [hparts, List.intercalate_splitOn]
    . intro component hcomponent
      have hcodes : component.codes ∈ path.codes.splitOn '/'.toNat := by
        rw [← hparts]
        exact List.mem_map_of_mem hcomponent
      exact notMem_of_mem_splitOn hcodes

namespace FileTree

/--
Components lead from a place to a place, given the directories above the first. An empty component
and a dot stay in a directory, and two dots go to the one above, or stay in the root. Any other one
goes down to the entry whose name has the same bytes.
-/
inductive Leads : List FileTree → FileTree → List WideText → FileTree → Prop where
  | arrived (above : List FileTree) (place : FileTree) : Leads above place [] place
  | stay {above entries : List FileTree} {name component : WideText} {later : List WideText}
    {goal : FileTree} (hcomponent : component = "" ∨ component = ".")
    (h : Leads above (directory name entries) later goal) :
    Leads above (directory name entries) (component :: later) goal
  | root {entries : List FileTree} {name : WideText} {later : List WideText} {goal : FileTree}
    (h : Leads [] (directory name entries) later goal) :
    Leads [] (directory name entries) (".." :: later) goal
  | up {above entries : List FileTree} {parent : FileTree} {name : WideText}
    {later : List WideText} {goal : FileTree} (h : Leads above parent later goal) :
    Leads (parent :: above) (directory name entries) (".." :: later) goal
  | down {above entries : List FileTree} {name component : WideText} {later : List WideText}
    {entry goal : FileTree} (hcomponent : component ≠ "" ∧ component ≠ "." ∧ component ≠ "..")
    (hentry : entry ∈ entries) (hname : entry.name.encoded = component.encoded)
    (h : Leads (directory name entries :: above) entry later goal) :
    Leads above (directory name entries) (component :: later) goal

variable {place e goal : FileTree} {above : List FileTree}

theorem DistinctNames.nodup_encoded (h : place.DistinctNames) :
    (place.entries.map (·.name.encoded)).Nodup := by
  cases h with
  | file => exact .nil
  | directory _ hnames _ => exact hnames

theorem DistinctNames.entryNamed?_eq_some_iff (h : place.DistinctNames) {name : WideText} :
    place.entryNamed? name = some e ↔ e ∈ place.entries ∧ e.name.encoded = name.encoded := by
  constructor
  . intro hfind
    exact ⟨mem_entries_of_entryNamed? hfind, by simpa using List.find?_some hfind⟩
  . rintro ⟨he, hname⟩
    cases hfind : place.entryNamed? name with
    | none => exact absurd hname (by simpa using List.find?_eq_none.1 hfind e he)
    | some f =>
      have hsame : f.name.encoded = e.name.encoded := by
        rw [hname]
        simpa using List.find?_some hfind
      rw [List.inj_on_of_nodup_map h.nodup_encoded (mem_entries_of_entryNamed? hfind) he hsame]

theorem leads_of_follow {components : List WideText}
    (h : place.follow above components = .ok goal) : Leads above place components goal := by
  induction components generalizing above place with
  | nil =>
    cases h
    exact .arrived above _
  | cons component later ih =>
    cases place with
    | file name source => cases h
    | directory name entries =>
      unfold follow at h
      rw [if_neg (by simp [isDirectory])] at h
      split at h
      . next hstay => exact .stay hstay (ih h)
      . next hstay =>
        split at h
        . next hup =>
          rw [hup]
          cases above with
          | nil => exact .root (ih h)
          | cons parent above => exact .up (ih h)
        . next hup =>
          obtain ⟨hempty, hdot⟩ := not_or.1 hstay
          split at h
          . next entry hentry =>
            have hname : entry.name.encoded = component.encoded := by
              simpa using List.find?_some hentry
            exact .down ⟨hempty, hdot, hup⟩ (mem_entries_of_entryNamed? hentry) hname (ih h)
          . cases h

theorem Leads.follow_eq {components : List WideText} (h : Leads above place components goal)
    (hplace : place.DistinctNames) (habove : ∀ p ∈ above, p.DistinctNames) :
    place.follow above components = .ok goal := by
  induction h with
  | arrived => rfl
  | stay hcomponent _ ih =>
    unfold follow
    rw [if_neg (by simp [isDirectory]), if_pos hcomponent]
    exact ih hplace habove
  | root _ ih =>
    unfold follow
    rw [if_neg (by simp [isDirectory]), if_neg (by decide), if_pos rfl]
    exact ih hplace habove
  | up _ ih =>
    obtain ⟨hparent, habove⟩ := List.forall_mem_cons.1 habove
    unfold follow
    rw [if_neg (by simp [isDirectory]), if_neg (by decide), if_pos rfl]
    exact ih hparent habove
  | down hcomponent hentry hname _ ih =>
    obtain ⟨hempty, hdot, hup⟩ := hcomponent
    unfold follow
    rw [if_neg (by simp [isDirectory]), if_neg (not_or.2 ⟨hempty, hdot⟩), if_neg hup,
      hplace.entryNamed?_eq_some_iff.2 ⟨hentry, hname⟩]
    exact ih (hplace.of_mem_entries hentry) (List.forall_mem_cons.2 ⟨hplace, habove⟩)

end FileTree

namespace FileSystem

open FileTree

/--
A path leads to a place, from the root if it has a slash in front, and from the working directory
otherwise. It is not empty, has no null character, and every code of it stands for bytes.
-/
structure LeadsTo (system : FileSystem) (path : WideText) (place : FileTree) : Prop where
  ne_empty : path ≠ ""
  encodable : ∀ code ∈ path.codes,
    code ≠ 0 ∧ (code.isValidChar ∨ 0xDC80 ≤ code ∧ code ≤ 0xDCFF)
  leads : ∃ components, path.HasComponents components
    ∧ Leads [] system.root
      ((if path.codes.head? = some '/'.toNat then [] else system.working) ++ components) place

variable {system : FileSystem} {path : WideText} {place : FileTree}

theorem components_eq (system : FileSystem) (path : WideText) :
    system.components path =
      (if path.codes.head? = some '/'.toNat then [] else system.working) ++ path.splitAt '/' := by
  rw [components]
  split <;> rfl

theorem resolve_eq_ok_iff_leadsTo (h : system.root.DistinctNames) :
    system.resolve path = .ok place ↔ system.LeadsTo path place := by
  have hencodable : (∀ code ∈ path.codes,
      code ≠ 0 ∧ (code.isValidChar ∨ 0xDC80 ≤ code ∧ code ≤ 0xDCFF)) ↔
        0 ∉ path.codes ∧ path.isEncodable := by
    rw [← List.forall_mem_ne']
    simp [WideText.isEncodable, WideText.isByte, forall_and]
  rw [resolve_eq_ok_iff, components_eq]
  constructor
  . rintro ⟨hencoded, hnull, hempty, hfollow⟩
    have hparts := (WideText.hasComponents_iff hempty).2 rfl
    exact ⟨hempty, hencodable.2 ⟨hnull, hencoded⟩, _, hparts, leads_of_follow hfollow⟩
  . rintro ⟨hempty, hcodes, parts, hparts, hleads⟩
    obtain ⟨hnull, hencoded⟩ := hencodable.1 hcodes
    rw [(WideText.hasComponents_iff hempty).1 hparts]
    exact ⟨hencoded, hnull, hempty, hleads.follow_eq h (List.forall_mem_nil _)⟩

end FileSystem

end MigrationLint
