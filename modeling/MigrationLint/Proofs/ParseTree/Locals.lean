import MigrationLint.Proofs.ParseTree.Search

/-!
This module contains the identifiers that containers bind. A list of targets or parameters may hold
further lists, which bind names if their type is that of a container.
-/

namespace MigrationLint

namespace ParseTree

variable {t parent row : ParseTree} {name : String}

theorem text_mem_localNames (hparent : t.Reaches parent)
    (hcontainer : parent.type ∈ bindingContainers) (hrow : row ∈ parent.namedChildren)
    (hidentifier : row.isIdentifier) : row.text ∈ t.localNames := by
  rw [mem_localNames_iff]
  refine ⟨parent, hparent, ?_⟩
  rw [ownNames_container hcontainer]
  exact List.mem_map_of_mem (List.mem_filter.2 ⟨hrow, hidentifier⟩)

/--
A row stands in a list, below as many further lists of a type as the depth says.
-/
inductive Nests (type : String) (list : ParseTree) : ℕ → ParseTree → Prop where
  | direct {row : ParseTree} (h : row ∈ list.namedChildren) : Nests type list 0 row
  | deeper {depth : ℕ} {inner row : ParseTree} (hinner : Nests type list depth inner)
      (htype : inner.type = type) (h : row ∈ inner.namedChildren) : Nests type list (depth + 1) row

end ParseTree

end MigrationLint
