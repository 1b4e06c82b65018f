import MigrationLint.Proofs.Node.Collect

/-!
This module contains what the conversion of a tree makes of more locals. They settle statements that
consist of a name: what was a bare call becomes a variable. Since identifiers have nothing below
them, all else stays as it is, at every node of the tree.
-/

namespace MigrationLint

namespace ParseTree

def LeafIdentifiers (t : ParseTree) : Prop :=
  ∀ row ∈ t.rows, row.isIdentifier → row.namedChildren = []

/--
Check whether a place is a statement that consists of a name which more locals know and fewer do
not.
-/
def Place.isSettled (few more : List String) (p : Place) : Bool :=
  p.isBareCall few && p.row.text ∈ more

variable {t c : ParseTree} {few more : List String} {parent : Option String}
variable {above : List (ParseTree × Nat)} {p : Place}

theorem LeafIdentifiers.child (h : t.LeafIdentifiers) (hc : c ∈ t.children) :
    c.LeafIdentifiers := by
  intro row hrow
  apply h
  exact mem_rows_of_mem_children hc hrow

theorem LeafIdentifiers.root (h : t.LeafIdentifiers) (hidentifier : t.isIdentifier) :
    t.namedChildren = [] :=
  h t t.mem_rows_self hidentifier

theorem Place.isBareCall_of_subset (hmore : few ⊆ more) (h : p.isBareCall more) :
    p.isBareCall few := by
  simp only [isBareCall, Bool.and_eq_true, Bool.not_eq_true', decide_eq_false_iff_not] at h ⊢
  exact ⟨h.1, fun hfew => h.2 (hmore hfew)⟩

theorem Place.isIdentifier_of_isBareCall (h : p.isBareCall few) : p.row.isIdentifier := by
  simp only [isBareCall, Bool.and_eq_true] at h
  exact h.1.1

theorem Place.isSettled_iff :
    p.isSettled few more ↔ p.isBareCall few ∧ ¬ p.isBareCall more := by
  simp only [isSettled, isBareCall, Bool.and_eq_true, Bool.not_eq_true', decide_eq_true_eq,
    decide_eq_false_iff_not]
  tauto

theorem converted_eq_nil (h : t.namedChildren = []) : t.converted = [] := by
  rw [converted, List.filter_eq_nil_iff]
  rintro ⟨c, i⟩ hmem hconverts
  have hnamed : c ∈ t.namedChildren := by
    simp only [converts, Bool.and_eq_true] at hconverts
    exact List.mem_filter.2 ⟨mem_of_mem_zipIdx hmem, hconverts.1.1⟩
  rw [h] at hnamed
  cases hnamed

theorem convertedFrom_congr (hmore : few ⊆ more) (above : List (ParseTree × Nat)) (t : ParseTree)
    (h : t.LeafIdentifiers) (hfew : Place.isConverted few ⟨t, above⟩)
    (hconverted : Place.isConverted more ⟨t, above⟩) :
    convertedFrom few above t = convertedFrom more above t := by
  rw [convertedFrom_eq hfew, convertedFrom_eq hconverted]
  congr 1
  by_cases hidentifier : t.isIdentifier
  . simp [converted_eq_nil (h.root hidentifier)]
  -- A row that is no identifier is no bare call, however many locals there are.
  . have hbare (locals : List String) : ¬ Place.isBareCall locals ⟨t, above⟩ :=
      fun hbare => hidentifier (Place.isIdentifier_of_isBareCall hbare)
    rw [if_neg (hbare few), if_neg (hbare more)]
    apply List.flatMap_congr
    intro (c, i) hmem
    obtain ⟨hi, hconverts⟩ := mem_converted_iff.1 hmem
    have hc := List.mem_of_getElem? hi
    apply convertedFrom_congr hmore _ _ (h.child hc)
    . simp [Place.isConverted_below, hconverts, hbare, hfew]
    . simp [Place.isConverted_below, hconverts, hbare, hconverted]
termination_by t.size
decreasing_by exact size_lt_of_mem_children hc

theorem convertedPlaces_congr (hmore : few ⊆ more) (h : t.LeafIdentifiers) :
    t.convertedPlaces few = t.convertedPlaces more :=
  convertedFrom_congr hmore [] t h rfl rfl

end ParseTree

namespace Node

open ParseTree

/--
Two nodes agree in all but their children.
-/
structure Alike (n m : Node) : Prop where
  kind_eq : n.kind = m.kind
  location_eq : n.location = m.location
  text_eq : n.text = m.text
  roles_eq : n.roles = m.roles

/--
Two trees of nodes have the same shape, with the same texts and lines at every node.
-/
inductive SameShape : Node → Node → Prop where
  | mk {kind kind' : NodeKind} {location : Location} {text : String}
      {roles roles' : List (String × RoleValue)} {children children' : List Node}
      (h : List.Forall₂ SameShape children children') :
      SameShape (.mk kind location text roles children) (.mk kind' location text roles' children')

theorem Alike.refl (n : Node) : n.Alike n :=
  ⟨rfl, rfl, rfl, rfl⟩

variable {file : WideText} {locals few more : List String} {parent : Option String} {t : ParseTree}
variable {p : Place}

theorem children_convert_row (h : ¬ t.isBareCall locals parent) :
    (convert file locals parent t).children =
      t.converted.map fun (c, _) => convert file locals (some t.type) c := by
  rw [convert_row h]
  rfl

theorem convert_variable (hidentifier : t.isIdentifier) (hleaf : t.namedChildren = [])
    (hbare : ¬ t.isBareCall locals parent) :
    convert file locals parent t = .mk .localVar ⟨file, t.line⟩ t.text [] [] := by
  have htype : t.type = "identifier" := by simpa [isIdentifier] using hidentifier
  have htexts : t.textRoles = [] := by rw [textRoles_eq, htype]; rfl
  rw [convert_row hbare, kind_eq_localVar_iff.2 htype, htexts, childRoles, converted_eq_nil hleaf]
  rfl

theorem alike_convert (hfew : ¬ t.isBareCall few parent) (hmore : ¬ t.isBareCall more parent) :
    (convert file few parent t).Alike (convert file more parent t) := by
  rw [convert_row hfew, convert_row hmore]
  constructor <;> rfl

theorem toNode_settled (hleaf : p.row.isIdentifier → p.row.namedChildren = [])
    (h : p.isSettled few more) :
    p.toNode file few = .mk .call ⟨file, p.row.line⟩ p.row.text [("message", .text p.row.text)] []
      ∧ p.toNode file more = .mk .localVar ⟨file, p.row.line⟩ p.row.text [] [] := by
  obtain ⟨hbare, hlocal⟩ := Place.isSettled_iff.1 h
  have hidentifier := Place.isIdentifier_of_isBareCall hbare
  rw [← isBareCall_place] at hbare hlocal
  exact ⟨convert_bareCall hbare, convert_variable hidentifier (hleaf hidentifier) hlocal⟩

theorem alike_toNode (hmore : few ⊆ more) (h : ¬ p.isSettled few more) :
    (p.toNode file few).Alike (p.toNode file more) := by
  rw [Place.isSettled_iff, not_and, not_not] at h
  unfold Place.toNode
  by_cases hbare : p.isBareCall few
  . have hmore := h hbare
    rw [← isBareCall_place] at hbare hmore
    rw [convert_bareCall hbare, convert_bareCall hmore]
    exact .refl _
  . have hmore : ¬ p.isBareCall more := fun h => hbare (Place.isBareCall_of_subset hmore h)
    rw [← isBareCall_place] at hbare hmore
    exact alike_convert hbare hmore

theorem exists_convert_identifier (file : WideText) (locals : List String) (parent : Option String)
    (hidentifier : t.isIdentifier) (hleaf : t.namedChildren = []) :
    ∃ kind roles, convert file locals parent t = .mk kind ⟨file, t.line⟩ t.text roles [] := by
  by_cases hbare : t.isBareCall locals parent
  . exact ⟨_, _, convert_bareCall hbare⟩
  . exact ⟨_, _, convert_variable hidentifier hleaf hbare⟩

/--
The nodes of a place under fewer and under more locals: a bare call and a variable without roles if
the place is settled, and else nodes that agree in all but their children.
-/
def SettledAt (file : WideText) (few more : List String) (p : Place) : Prop :=
  if p.isSettled few more then
    p.toNode file few = .mk .call ⟨file, p.row.line⟩ p.row.text [("message", .text p.row.text)] []
      ∧ p.toNode file more = .mk .localVar ⟨file, p.row.line⟩ p.row.text [] []
  else (p.toNode file few).Alike (p.toNode file more)

theorem settledAt_of_subset (file : WideText) (hmore : few ⊆ more)
    (hleaf : p.row.isIdentifier → p.row.namedChildren = []) : SettledAt file few more p := by
  unfold SettledAt
  split
  . next h => exact toNode_settled hleaf h
  . next h => exact alike_toNode hmore h

theorem sameShape_convert (few more : List String) (parent : Option String) (t : ParseTree)
    (h : t.LeafIdentifiers) :
    (convert file few parent t).SameShape (convert file more parent t) := by
  by_cases hidentifier : t.isIdentifier
  . have hleaf := h.root hidentifier
    obtain ⟨kind, roles, hfew⟩ := exists_convert_identifier file few parent hidentifier hleaf
    obtain ⟨kind', roles', hmore⟩ := exists_convert_identifier file more parent hidentifier hleaf
    rw [hfew, hmore]
    exact .mk .nil
  . have hbare (locals : List String) : ¬ t.isBareCall locals parent := by
      apply not_isBareCall_of_type
      simpa [isIdentifier] using hidentifier
    rw [convert_row (hbare few), convert_row (hbare more)]
    apply SameShape.mk
    rw [List.forall₂_map_left_iff, List.forall₂_map_right_iff, List.forall₂_same]
    rintro ⟨c, i⟩ hmem
    have hc := List.mem_of_getElem? (mem_converted_iff.1 hmem).1
    exact sameShape_convert few more (some t.type) c (h.child hc)
termination_by t.size
decreasing_by exact size_lt_of_mem_children hc

end Node

end MigrationLint
