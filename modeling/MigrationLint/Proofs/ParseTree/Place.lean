import MigrationLint.Proofs.List
import MigrationLint.Proofs.ParseTree.Parts

/-!
This module contains the places of a tree: its rows in pre-order, each with the rows above it. A
place is converted if it is the root, or if it is a part of a converted place that is not a bare
call. What stands below a place that is not converted is not converted either.
-/

namespace MigrationLint

namespace ParseTree

/--
A row and the rows above it, the nearest first, each with the position at which it holds the row or
the one before it.
-/
structure Place where
  row : ParseTree
  above : List (ParseTree × Nat)

mutual

def placesFrom (above : List (ParseTree × Nat)) : ParseTree → List Place
  | node label children =>
    ⟨node label children, above⟩ :: placesBelow (node label children) above 0 children

def placesBelow (parent : ParseTree) (above : List (ParseTree × Nat)) (position : Nat) :
    List ParseTree → List Place
  | [] => []
  | c :: cs =>
    placesFrom ((parent, position) :: above) c ++ placesBelow parent above (position + 1) cs

end

def places (t : ParseTree) : List Place :=
  placesFrom [] t

theorem placesFrom_eq (above : List (ParseTree × Nat)) (t : ParseTree) :
    placesFrom above t = ⟨t, above⟩ :: placesBelow t above 0 t.children := by
  cases t
  rfl

theorem placesBelow_eq_flatMap (parent : ParseTree) (above : List (ParseTree × Nat))
    (position : Nat) (cs : List ParseTree) :
    placesBelow parent above position cs =
      (cs.zipIdx position).flatMap fun (c, i) => placesFrom ((parent, i) :: above) c := by
  induction cs generalizing position with
  | nil => rfl
  | cons c cs ih => simp [placesBelow, ih]

theorem placesFrom_map_row (above : List (ParseTree × Nat)) (t : ParseTree) :
    (placesFrom above t).map (·.row) = t.rows := by
  rw [placesFrom_eq, placesBelow_eq_flatMap, rows_eq, rowsOf_eq_flatMap]
  simp only [List.map_cons, List.map_flatMap, List.cons.injEq, true_and]
  calc (t.children.zipIdx.flatMap fun (c, i) => (placesFrom ((t, i) :: above) c).map (·.row))
    _ = t.children.zipIdx.flatMap fun (c, _) => c.rows := by
      apply List.flatMap_congr
      intro (c, i) hc
      apply placesFrom_map_row
    _ = (t.children.zipIdx.map (·.1)).flatMap rows := by
      rw [List.flatMap_map]
    _ = t.children.flatMap rows := by
      rw [List.zipIdx_map_fst]
termination_by t.size
decreasing_by
  apply size_lt_of_mem_children
  exact mem_of_mem_zipIdx hc

namespace Place

def parentType (p : Place) : Option String :=
  p.above.head?.map (·.1.type)

def isBareCall (locals : List String) (p : Place) : Bool :=
  p.row.isIdentifier && p.parentType.any (· ∈ statementContainers) && !(p.row.text ∈ locals)

def isConvertedBelow (locals : List String) (row : ParseTree) : List (ParseTree × Nat) → Bool
  | [] => true
  | (parent, position) :: above =>
    parent.converts position row && !isBareCall locals ⟨parent, above⟩ &&
      isConvertedBelow locals parent above

def isConverted (locals : List String) (p : Place) : Bool :=
  isConvertedBelow locals p.row p.above

theorem isConverted_below {locals : List String} {parent row : ParseTree}
    {above : List (ParseTree × Nat)} {position : Nat} :
    isConverted locals ⟨row, (parent, position) :: above⟩ =
      (parent.converts position row && !isBareCall locals ⟨parent, above⟩ &&
        isConverted locals ⟨parent, above⟩) := rfl

end Place

def convertedFrom (locals : List String) (above : List (ParseTree × Nat)) (t : ParseTree) :
    List Place :=
  (placesFrom above t).filter (·.isConverted locals)

/--
List the converted places of a tree in pre-order.
-/
def convertedPlaces (locals : List String) (t : ParseTree) : List Place :=
  t.places.filter (·.isConverted locals)

theorem row_mem_rows {locals : List String} {t : ParseTree} {p : Place}
    (hp : p ∈ t.convertedPlaces locals) : p.row ∈ t.rows := by
  rw [← placesFrom_map_row []]
  apply List.mem_map_of_mem
  exact List.mem_of_mem_filter hp

theorem convertedFrom_eq_nil {locals : List String} {above : List (ParseTree × Nat)}
    {t : ParseTree} (h : Place.isConverted locals ⟨t, above⟩ = false) :
    convertedFrom locals above t = [] := by
  unfold convertedFrom
  rw [placesFrom_eq, List.filter_cons_of_neg (by simp [h]), placesBelow_eq_flatMap,
    List.filter_flatMap, List.flatMap_eq_nil_iff]
  intro (c, i) hc
  -- The child stands below a place that is not converted, and so does all that stands below it.
  apply convertedFrom_eq_nil
  rw [Place.isConverted_below, h, Bool.and_false]
termination_by t.size
decreasing_by
  apply size_lt_of_mem_children
  exact mem_of_mem_zipIdx hc

theorem convertedFrom_eq {locals : List String} {above : List (ParseTree × Nat)} {t : ParseTree}
    (h : Place.isConverted locals ⟨t, above⟩) :
    convertedFrom locals above t =
      ⟨t, above⟩ ::
        if Place.isBareCall locals ⟨t, above⟩ then []
        else t.converted.flatMap fun (c, i) => convertedFrom locals ((t, i) :: above) c := by
  have hbelow (c : ParseTree) (i : Nat) :
      Place.isConverted locals ⟨c, (t, i) :: above⟩ =
        (t.converts i c && !Place.isBareCall locals ⟨t, above⟩) := by
    rw [Place.isConverted_below, h, Bool.and_true]
  have hplaces : convertedFrom locals above t =
      ⟨t, above⟩ :: t.children.zipIdx.flatMap fun (c, i) =>
        convertedFrom locals ((t, i) :: above) c := by
    rw [convertedFrom, placesFrom_eq, List.filter_cons_of_pos (by simpa using h),
      placesBelow_eq_flatMap, List.filter_flatMap]
    rfl
  rw [hplaces]
  congr 1
  split
  . next hbare =>
    rw [List.flatMap_eq_nil_iff]
    intro (c, i) _
    apply convertedFrom_eq_nil
    simp [hbelow, hbare]
  . unfold converted
    rw [flatMap_filter_eq]
    intro (c, i) _ hc
    apply convertedFrom_eq_nil
    simp [hbelow, hc]

end ParseTree

end MigrationLint
