import MigrationLint.Proofs.Node.Collect

/-!
This module contains the schema of roles and what the conversion stores. A node stores only roles
that its kind has, so that asking for a stored role gives what was stored. The one exception are
assignments to a left side of no known type: they become nodes of unknown kind, which has no roles,
but their sides are stored.
-/

namespace MigrationLint

namespace ParseTree

/--
The row is an assignment whose left side is absent or of a type that no kind of assignment has.
-/
def AssignsUnknown (t : ParseTree) : Prop :=
  t.type = "assignment" ∧ ∀ left, t.child? "left" = some left →
    assignmentTable.lookup left.type = none

variable {t : ParseTree} {field name : String} {value : RoleValue}

theorem kind_of_assignsUnknown (h : t.AssignsUnknown) : t.kind = .unknown := by
  rw [kind_assignment h.1]
  cases hleft : t.child? "left" with
  | none => rfl
  | some left => simp [h.2 left hleft]

theorem mem_roles_of_fieldsOfKind (kind : NodeKind) :
    ∀ entry ∈ fieldsOfKind kind, entry.2 ∈ kind.roles := by
  cases kind <;> decide

theorem mem_roles_of_assignmentFields :
    ∀ assigned ∈ assignmentTable, ∀ entry ∈ assignmentFields, entry.2 ∈ assigned.2.roles := by
  decide

theorem mem_roles_of_fields (hknown : ¬ t.AssignsUnknown) (h : (field, name) ∈ t.fields) :
    name ∈ t.kind.roles := by
  unfold fields at h
  split at h
  . next htype =>
    obtain ⟨left, hleft, hlookup⟩ : ∃ left, t.child? "left" = some left
        ∧ assignmentTable.lookup left.type ≠ none := by
      simpa [AssignsUnknown, htype] using hknown
    obtain ⟨kind, hkind⟩ := Option.ne_none_iff_exists'.1 hlookup
    rw [kind_assignment htype, hleft]
    simp only [Option.bind_some, hkind, Option.getD_some]
    exact mem_roles_of_assignmentFields _ (mem_of_lookup_eq_some hkind) _ h
  . exact mem_roles_of_fieldsOfKind t.kind _ h

theorem mem_roles_of_textRoles (h : (name, value) ∈ t.textRoles) : name ∈ t.kind.roles := by
  unfold textRoles at h
  split at h
  . next hkind =>
    cases List.mem_singleton.1 h
    rw [hkind]
    decide
  . next hkind =>
    have hname : name = "operator" := by
      split at h
      . cases List.mem_singleton.1 h
        rfl
      . cases List.mem_singleton.1 h
        rfl
    rw [hkind, hname]
    decide
  . cases h

theorem mem_roles_of_childRoles (hknown : ¬ t.AssignsUnknown) (h : (name, value) ∈ t.childRoles) :
    name ∈ t.kind.roles := by
  obtain ⟨c, i, position, hc, hrole, _⟩ := mem_childRoles_iff.1 h
  have hi := (mem_converted_iff.1 (List.mem_of_getElem? hc)).1
  obtain ⟨field, hfield, _⟩ := (roleAt_eq_some_iff hi).1 hrole
  exact mem_roles_of_fields hknown hfield

end ParseTree

namespace Node

open ParseTree

/--
Every stored role is one that the kind of the node has, and asking for it gives what was stored.
-/
def FitsSchema (n : Node) : Prop :=
  ∀ entry ∈ n.roles, entry.1 ∈ n.kind.roles ∧ n.role entry.1 = .ok (n.target? entry.2)
    ∧ (entry.2 ≠ .absent → (n.target? entry.2).isSome)

/--
The node stores the sides of its row although its kind is unknown, so that asking for a stored role
is refused.
-/
structure RefusesSides (row : ParseTree) (n : Node) : Prop where
  kind_eq : n.kind = .unknown
  refused : ∀ entry ∈ n.roles, (entry.1 = "left_value" ∨ entry.1 = "right_value")
    ∧ n.role entry.1 = .error ⟨.unknown, entry.1⟩
  stored : ∀ entry ∈ assignmentFields, ∀ side, row.child? entry.1 = some side → side.isNamed →
    ¬ side.isTrivia → entry.2 ∈ n.roles.map (·.1)

variable {file : WideText} {locals : List String} {parent : Option String} {t : ParseTree}

theorem isSome_target? {n : Node} (hroles : n.OwnRoles) {entry : String × RoleValue}
    (h : entry ∈ n.roles) (hvalue : entry.2 ≠ .absent) : (n.target? entry.2).isSome := by
  rcases hroles.own entry h with habsent | ⟨text, htext⟩ | ⟨position, hchild, hlt⟩
  . exact absurd habsent hvalue
  . rw [htext]
    rfl
  . rw [hchild]
    simp [target?, hlt]

theorem fitsSchema_of_mem_roles {n : Node} (hroles : n.OwnRoles)
    (h : ∀ entry ∈ n.roles, entry.1 ∈ n.kind.roles) : n.FitsSchema := by
  intro entry hentry
  refine ⟨h entry hentry, ?_, isSome_target? hroles hentry⟩
  rw [role_eq (h entry hentry), filled?_of_mem hroles hentry]

theorem fitsSchema_convert (hknown : ¬ t.AssignsUnknown) :
    (convert file locals parent t).FitsSchema := by
  apply fitsSchema_of_mem_roles ownRoles_convert
  by_cases hbare : t.isBareCall locals parent
  . rw [convert_bareCall hbare]
    simp [roles, kind, NodeKind.roles]
  . rw [roles_convert_row hbare, kind_row hbare]
    intro entry hentry
    rcases List.mem_append.1 hentry with htext | hchild
    . exact mem_roles_of_textRoles htext
    . exact mem_roles_of_childRoles hknown hchild

theorem mem_assignmentFields {name : String} {value : RoleValue} (htype : t.type = "assignment")
    (h : (name, value) ∈ (convert file locals parent t).roles) :
    ∃ field, (field, name) ∈ assignmentFields := by
  rw [roles_convert_row (not_isBareCall_of_type (by simp [htype])), textRoles_eq] at h
  simp only [htype, String.reduceEq, ↓reduceIte, List.nil_append] at h
  obtain ⟨c, i, position, hc, hrole, _⟩ := mem_childRoles_iff.1 h
  have hi := (mem_converted_iff.1 (List.mem_of_getElem? hc)).1
  obtain ⟨field, hfield, _⟩ := (roleAt_eq_some_iff hi).1 hrole
  rw [fields, if_pos htype] at hfield
  exact ⟨field, hfield⟩

theorem refusesSides_convert (h : t.AssignsUnknown) :
    (convert file locals parent t).RefusesSides t := by
  have hbare : ¬ t.isBareCall locals parent := not_isBareCall_of_type (by simp [h.1])
  have hkind : (convert file locals parent t).kind = .unknown := by
    rw [kind_row hbare, kind_of_assignsUnknown h]
  refine ⟨hkind, ?_, ?_⟩
  . rintro ⟨name, value⟩ hentry
    obtain ⟨field, hfield⟩ := mem_assignmentFields h.1 hentry
    constructor
    . simp only [assignmentFields, List.mem_cons, Prod.mk.injEq, List.not_mem_nil, or_false]
        at hfield
      exact hfield.imp And.right And.right
    . rw [role, hkind, if_neg (by simp [NodeKind.roles])]
  . rintro ⟨field, name⟩ hfield side hside hnamed htrivia
    have hfields : (field, name) ∈ t.fields := by
      rw [fields, if_pos h.1]
      exact hfield
    have hfilled : (convert file locals parent t).filled? name = _ :=
      filled?_child hbare hfields hside hnamed htrivia
    obtain ⟨value, hvalue, _⟩ := Option.bind_eq_some_iff.1 hfilled
    exact List.mem_map.2 ⟨_, mem_of_lookup_eq_some hvalue, rfl⟩

/--
The conversion of a tree from any row on stores only roles that the schema has: of every node, each
stored role can be asked for and gives what was stored. Only assignments to a left side of no known
type become nodes that store their sides and refuse to give them.
-/
theorem collect_schema (file : WideText) (locals : List String) (t : ParseTree) (trace : Trace)
    (root : Node) (h : (collect file locals t trace).1 = some root) :
    List.Forall₂ (fun p n => (¬ p.row.AssignsUnknown → n.FitsSchema)
        ∧ (p.row.AssignsUnknown → n.RefusesSides p.row))
      (t.convertedPlaces locals) root.preorder := by
  rw [collect_eq] at h
  split at h
  . cases h
  . cases h
    rw [preorder_eq_nodes, nodes_eq_convertedPlaces]
    apply forall₂_map
    intro p _
    exact ⟨fitsSchema_convert, refusesSides_convert⟩

end Node

namespace ParseTree

def newRole : ParseTree :=
  namedRow "call" "Role.new" (some "right") 0
    [namedRow "constant" "Role" (some "receiver") 0 [],
     namedRow "identifier" "new" (some "method") 0 []]

/--
An assignment to `nil`, which parsers accept.
-/
def nilAssignment : ParseTree :=
  namedRow "assignment" "nil = Role.new" none 0 [namedRow "nil" "nil" (some "left") 0 [], newRole]

end ParseTree

namespace Node

open ParseTree

theorem collect_nilAssignment :
    let program := namedRow "program" "nil = Role.new" none 0 [nilAssignment]
    ∃ root assign call, (collect "a.rb" [] program {}).1 = some root
      ∧ root.preorder[1]? = some assign ∧ "left_value" ∈ assign.roles.map (·.1)
      ∧ assign.role "left_value" = .error ⟨.unknown, "left_value"⟩ ∧ ¬ assign.FitsSchema
      ∧ root.preorder[3]? = some call ∧ call.FitsSchema := by
  intro program
  have hcollect : (collect "a.rb" [] program {}).1 = some (convert "a.rb" [] none program) := by
    rw [collect_eq, if_neg (by decide)]
  have hschema := collect_schema "a.rb" [] program {} _ hcollect
  have hassign : (program.convertedPlaces [])[1]? = some ⟨nilAssignment, [(program, 0)]⟩ := rfl
  have hcall : (program.convertedPlaces [])[3]? =
      some ⟨newRole, [(nilAssignment, 1), (program, 0)]⟩ := rfl
  obtain ⟨assign, hassign, _, hrefuses⟩ := getElem?_of_forall₂ hschema hassign
  obtain ⟨call, hcall, hfits, _⟩ := getElem?_of_forall₂ hschema hcall
  obtain ⟨_, hrefused, hstored⟩ := hrefuses ⟨rfl, fun left hleft => by cases hleft; rfl⟩
  have hleft : "left_value" ∈ assign.roles.map (·.1) :=
    hstored ("left", "left_value") (by decide) _ rfl rfl (by decide)
  obtain ⟨entry, hentry, hname⟩ := List.mem_map.1 hleft
  have herror := (hrefused entry hentry).2
  have hknown : ¬ newRole.AssignsUnknown := fun h => absurd h.1 (by decide)
  refine ⟨_, assign, call, hcollect, hassign, hleft, ?_, ?_, hcall, hfits hknown⟩
  . rw [← hname]
    exact herror
  . intro hassigned
    have hok := (hassigned entry hentry).2.1
    rw [herror] at hok
    cases hok

end Node

end MigrationLint
