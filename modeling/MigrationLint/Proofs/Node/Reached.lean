import MigrationLint.Proofs.ParseTree.Place

/-!
This module contains the rows that the conversion of a row reaches, in pre-order and each with the
type of the row above it. Every reached row becomes one node, in the same order, and the reached
rows of a converted place are the converted places from it on.
-/

namespace MigrationLint

namespace Node

open ParseTree

def reached (locals : List String) (parent : Option String) (t : ParseTree) :
    List (Option String × ParseTree) :=
  (parent, t) :: (t.plan locals parent).parts.attach.flatMap fun ⟨part, _⟩ =>
    reached locals (some t.type) part.2
termination_by t.size
decreasing_by exact size_lt_of_mem_parts ‹_›

theorem reached_eq (locals : List String) (parent : Option String) (t : ParseTree) :
    reached locals parent t =
      (parent, t) :: (t.plan locals parent).parts.flatMap fun part =>
        reached locals (some t.type) part.2 := by
  rw [reached]
  congr 1
  rw [List.flatMap_subtype (g := fun (part : Option String × ParseTree) =>
    reached locals (some t.type) part.2) (fun _ _ => rfl), List.unattach_attach]

theorem nodes_convert (file : WideText) (locals : List String) (parent : Option String)
    (t : ParseTree) :
    (convert file locals parent t).nodes =
      (reached locals parent t).map fun (parent, row) => convert file locals parent row := by
  rw [nodes_eq, reached_eq, List.map_cons, List.map_flatMap]
  congr 1
  rw [convert_eq, children, nodesOf_eq_flatMap, List.flatMap_map]
  apply List.flatMap_congr
  intro part hpart
  apply nodes_convert
termination_by t.size
decreasing_by exact size_lt_of_mem_parts hpart

theorem isBareCall_place (locals : List String) (p : Place) :
    p.row.isBareCall locals p.parentType = p.isBareCall locals := by
  have hkind : (p.row.kind == .localVar) = p.row.isIdentifier := by
    rw [Bool.eq_iff_iff, isIdentifier, beq_iff_eq, beq_iff_eq]
    exact kind_eq_localVar_iff
  rw [ParseTree.isBareCall, Place.isBareCall, hkind]

theorem parts_plan {locals : List String} {parent : Option String} {t : ParseTree} :
    (t.plan locals parent).parts =
      if t.isBareCall locals parent then []
      else t.converted.map fun (c, i) => (t.roleAt i c, c) := by
  unfold plan
  split
  . rfl
  . exact t.parts_eq

theorem reached_eq_convertedFrom (locals : List String) (above : List (ParseTree × Nat))
    (t : ParseTree) (h : Place.isConverted locals ⟨t, above⟩) :
    reached locals (Place.parentType ⟨t, above⟩) t =
      (convertedFrom locals above t).map fun p => (p.parentType, p.row) := by
  rw [reached_eq, convertedFrom_eq h, parts_plan, isBareCall_place locals ⟨t, above⟩,
    List.map_cons]
  congr 1
  split
  . rfl
  . next hbare =>
    rw [List.flatMap_map, List.map_flatMap]
    apply List.flatMap_congr
    intro (c, i) hmem
    have hconverts : t.converts i c := by simpa using (List.mem_filter.1 hmem).2
    have hplace : Place.isConverted locals ⟨c, (t, i) :: above⟩ := by
      simp [Place.isConverted_below, hconverts, hbare, h]
    exact reached_eq_convertedFrom locals ((t, i) :: above) c hplace
termination_by t.size
decreasing_by
  apply size_lt_of_mem_children
  exact mem_of_mem_zipIdx (List.mem_of_mem_filter ‹_›)

theorem reached_eq_convertedPlaces (locals : List String) (t : ParseTree) :
    reached locals none t = (t.convertedPlaces locals).map fun p => (p.parentType, p.row) := by
  apply reached_eq_convertedFrom locals [] t
  rfl

end Node

namespace ParseTree.Place

def toNode (file : WideText) (locals : List String) (p : Place) : Node :=
  Node.convert file locals p.parentType p.row

end ParseTree.Place

theorem Node.nodes_eq_convertedPlaces (file : WideText) (locals : List String) (t : ParseTree) :
    (convert file locals none t).nodes = (t.convertedPlaces locals).map (·.toNode file locals) := by
  rw [nodes_convert, reached_eq_convertedPlaces, List.map_map]
  rfl

end MigrationLint
