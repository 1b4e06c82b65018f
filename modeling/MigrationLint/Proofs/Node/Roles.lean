import Mathlib.Data.List.Nodup
import MigrationLint.Proofs.List
import MigrationLint.Proofs.Node.Reached
import MigrationLint.Proofs.Node.Target

/-!
This module contains the roles of converted nodes. Texts come first and parts follow in the order of
the source; no role is recorded twice, every part that fills a role is a child of the node, and
different roles are filled by different children.
-/

namespace MigrationLint

namespace ParseTree

theorem fields_cases {P : List (String × String) → Prop} (t : ParseTree)
    (hassign : P assignmentFields) (hkind : ∀ kind, P (fieldsOfKind kind)) : P t.fields := by
  unfold fields
  split
  . exact hassign
  . apply hkind

theorem lookup_fields {t : ParseTree} {field name : String} (h : (field, name) ∈ t.fields) :
    t.fields.lookup field = some name := by
  revert h
  have hall : ∀ entry ∈ t.fields, t.fields.lookup entry.1 = some entry.2 := by
    apply t.fields_cases (P := fun fields => ∀ entry ∈ fields, fields.lookup entry.1 = some entry.2)
    . decide
    . intro kind
      cases kind <;> decide
  exact hall (field, name)

theorem field_unique {t : ParseTree} {first second name : String} (h₁ : (first, name) ∈ t.fields)
    (h₂ : (second, name) ∈ t.fields) : first = second := by
  have hall : ∀ e₁ ∈ t.fields, ∀ e₂ ∈ t.fields, e₁.2 = e₂.2 → e₁.1 = e₂.1 := by
    apply t.fields_cases (P := fun fields =>
      ∀ e₁ ∈ fields, ∀ e₂ ∈ fields, e₁.2 = e₂.2 → e₁.1 = e₂.1)
    . decide
    . intro kind
      cases kind <;> decide
  exact hall _ h₁ _ h₂ rfl

theorem ne_of_mem_fields {t : ParseTree} {field name : String} (h : (field, name) ∈ t.fields) :
    field ≠ "method" ∧ name ≠ "message" ∧ name ≠ "operator" := by
  have hall : ∀ entry ∈ t.fields,
      entry.1 ≠ "method" ∧ entry.2 ≠ "message" ∧ entry.2 ≠ "operator" := by
    apply t.fields_cases (P := fun fields => ∀ entry ∈ fields,
      entry.1 ≠ "method" ∧ entry.2 ≠ "message" ∧ entry.2 ≠ "operator")
    . decide
    . intro kind
      cases kind <;> decide
  exact hall _ h

theorem roleAt_eq_some_iff {t c : ParseTree} {i : Nat} {name : String}
    (hc : t.children[i]? = some c) :
    t.roleAt i c = some name ↔ ∃ field, (field, name) ∈ t.fields ∧ t.finds field i := by
  rw [roleAt, Option.bind_eq_some_iff]
  constructor
  . intro ⟨field, hfield, hname⟩
    rw [leadAt_eq_some_iff hc] at hfield
    exact ⟨field, mem_of_lookup_eq_some hname, hfield⟩
  . intro ⟨field, hname, hfield⟩
    rw [← leadAt_eq_some_iff hc] at hfield
    exact ⟨field, hfield, lookup_fields hname⟩

theorem roleAt_unique {t c d : ParseTree} {i j : Nat} {name : String}
    (hc : t.children[i]? = some c) (hd : t.children[j]? = some d)
    (hi : t.roleAt i c = some name) (hj : t.roleAt j d = some name) : i = j := by
  rw [roleAt_eq_some_iff hc] at hi
  rw [roleAt_eq_some_iff hd] at hj
  obtain ⟨first, hfirst, hi⟩ := hi
  obtain ⟨second, hsecond, hj⟩ := hj
  rw [field_unique hfirst hsecond] at hi
  exact finds_unique hi hj

theorem mem_converted_iff {t c : ParseTree} {i : Nat} :
    (c, i) ∈ t.converted ↔ t.children[i]? = some c ∧ t.converts i c := by
  rw [converted, List.mem_filter, List.mk_mem_zipIdx_iff_getElem?]

def childRoles (t : ParseTree) : List (String × RoleValue) :=
  t.converted.zipIdx.filterMap fun ((c, i), position) =>
    (t.roleAt i c).map fun name => (name, .child position)

theorem mem_childRoles_iff {t : ParseTree} {name : String} {value : RoleValue} :
    (name, value) ∈ t.childRoles ↔
      ∃ c i position, t.converted[position]? = some (c, i) ∧ t.roleAt i c = some name
        ∧ value = .child position := by
  rw [childRoles, List.mem_filterMap]
  constructor
  . intro ⟨((c, i), position), hmem, hrole⟩
    rw [List.mk_mem_zipIdx_iff_getElem?] at hmem
    obtain ⟨_, hname, hentry⟩ := Option.map_eq_some_iff.1 hrole
    cases hentry
    exact ⟨c, i, position, hmem, hname, rfl⟩
  . intro ⟨c, i, position, hmem, hname, hvalue⟩
    refine ⟨((c, i), position), ?_, ?_⟩
    . rw [List.mk_mem_zipIdx_iff_getElem?]
      exact hmem
    . simp [hname, hvalue]

theorem converted_zipIdx_pairwise (t : ParseTree) :
    t.converted.zipIdx.Pairwise fun a b => a.1.2 < b.1.2 ∧ a.2 < b.2 := by
  apply List.Pairwise.and
  . have h : t.converted.Pairwise fun a b => a.2 < b.2 := by
      apply List.Pairwise.filter
      apply pairwise_zipIdx
    rw [← List.zipIdx_map_fst 0 t.converted, List.pairwise_map] at h
    exact h
  . apply pairwise_zipIdx

theorem childRoles_pairwise (t : ParseTree) :
    t.childRoles.Pairwise fun a b => a.1 ≠ b.1 ∧ a.2 ≠ b.2 := by
  rw [childRoles, List.pairwise_filterMap]
  refine List.Pairwise.imp_of_mem ?_ t.converted_zipIdx_pairwise
  intro ((c, i), position) ((d, j), later) hc hd hlt first hfirst second hsecond
  simp only at hlt
  obtain ⟨_, hi, rfl⟩ := Option.map_eq_some_iff.1 hfirst
  obtain ⟨_, hj, rfl⟩ := Option.map_eq_some_iff.1 hsecond
  have hc := mem_converted_iff.1 (mem_of_mem_zipIdx hc)
  have hd := mem_converted_iff.1 (mem_of_mem_zipIdx hd)
  constructor
  -- Roles of one name come from one field, and a field is found at one position.
  . intro hname
    simp only at hname
    rw [← hname] at hj
    have := roleAt_unique hc.1 hd.1 hi hj
    omega
  . intro hvalue
    simp only [RoleValue.child.injEq] at hvalue
    omega

theorem textRoles_eq (t : ParseTree) :
    t.textRoles =
      if t.type = "call" then [("message", .text t.message)]
      else if t.type = "operator_assignment" then
        [("operator", ((t.children.find? isOperator).map fun c => .text c.text).getD .absent)]
      else [] := by
  unfold textRoles
  split
  . next hkind =>
    rw [kind_eq_call_iff] at hkind
    simp [hkind]
  . next hkind =>
    rw [kind_eq_operatorAssign_iff] at hkind
    split
    . next hfind => simp [hkind, hfind]
    . next hfind => simp [hkind, hfind]
  . next hcall hoperator =>
    rw [imp_false, kind_eq_call_iff] at hcall
    rw [imp_false, kind_eq_operatorAssign_iff] at hoperator
    rw [if_neg hcall, if_neg hoperator]

theorem mem_textRoles {t : ParseTree} {name : String} {value : RoleValue}
    (h : (name, value) ∈ t.textRoles) :
    (name = "message" ∨ name = "operator") ∧ (value = .absent ∨ ∃ text, value = .text text) := by
  rw [textRoles_eq] at h
  split at h
  . simp at h
    simp [h]
  . split at h
    . cases hfind : t.children.find? isOperator <;> simp_all
    . simp at h

theorem textRoles_pairwise (t : ParseTree) {r : String × RoleValue → String × RoleValue → Prop} :
    t.textRoles.Pairwise r := by
  rw [textRoles_eq]
  split
  . apply List.pairwise_singleton
  . split
    . apply List.pairwise_singleton
    . exact List.Pairwise.nil

theorem ne_of_mem_childRoles {t : ParseTree} {name : String} {value : RoleValue}
    (h : (name, value) ∈ t.childRoles) : name ≠ "message" ∧ name ≠ "operator" := by
  obtain ⟨c, i, position, hc, hname, _⟩ := mem_childRoles_iff.1 h
  have hc := mem_converted_iff.1 (List.mem_of_getElem? hc)
  obtain ⟨field, hfield, _⟩ := (roleAt_eq_some_iff hc.1).1 hname
  exact (ne_of_mem_fields hfield).2

theorem roles_pairwise (t : ParseTree) :
    (t.textRoles ++ t.childRoles).Pairwise fun a b =>
      a.1 ≠ b.1 ∧ ∀ position, a.2 = .child position → b.2 ≠ .child position := by
  rw [List.pairwise_append]
  refine ⟨t.textRoles_pairwise, ?_, ?_⟩
  . apply t.childRoles_pairwise.imp
    intro a b ⟨hname, hvalue⟩
    refine ⟨hname, ?_⟩
    intro position ha hb
    exact hvalue (ha.trans hb.symm)
  . intro (name, value) htext (other, filled) hchild
    obtain ⟨hname, hvalue⟩ := mem_textRoles htext
    obtain ⟨hmessage, hoperator⟩ := ne_of_mem_childRoles hchild
    constructor
    . rintro rfl
      rcases hname with hname | hname
      . exact hmessage hname
      . exact hoperator hname
    . rintro position rfl
      simp at hvalue

end ParseTree

namespace Node

open ParseTree

/--
The roles of a node are recorded once each and are filled by texts or by children of the node, and
no child fills two roles.
-/
structure OwnRoles (n : Node) : Prop where
  nodup : (n.roles.map (·.1)).Nodup
  own : ∀ entry ∈ n.roles, entry.2 = .absent ∨ (∃ text, entry.2 = .text text)
    ∨ ∃ position, entry.2 = .child position ∧ position < n.children.length
  different : n.roles.Pairwise fun a b => ∀ position, a.2 = .child position → b.2 ≠ .child position

theorem partRoles_parts (t : ParseTree) : partRoles t.parts = t.childRoles := by
  rw [partRoles, childRoles, parts_eq, List.zipIdx_map, List.filterMap_map]
  rfl

variable {file : WideText} {locals : List String} {parent : Option String} {t : ParseTree}

theorem convert_bareCall (h : t.isBareCall locals parent) :
    convert file locals parent t =
      .mk .call ⟨file, t.line⟩ t.text [("message", .text t.text)] [] := by
  rw [convert_eq, plan, if_pos h]
  rfl

theorem convert_row (h : ¬ t.isBareCall locals parent) :
    convert file locals parent t =
      .mk t.kind ⟨file, t.line⟩ t.text (t.textRoles ++ t.childRoles)
        (t.converted.map fun (c, _) => convert file locals (some t.type) c) := by
  rw [convert_eq, plan, if_neg h]
  simp only [partRoles_parts]
  congr 1
  rw [parts_eq, List.map_map]
  rfl

theorem text_convert : (convert file locals parent t).text = t.text := by
  rw [convert_eq]
  rfl

theorem location_convert : (convert file locals parent t).location = ⟨file, t.line⟩ := by
  rw [convert_eq]
  rfl

theorem kind_bareCall (h : t.isBareCall locals parent) :
    (convert file locals parent t).kind = .call := by
  rw [convert_bareCall h]
  rfl

theorem kind_row (h : ¬ t.isBareCall locals parent) :
    (convert file locals parent t).kind = t.kind := by
  rw [convert_row h]
  rfl

theorem not_isBareCall_of_type (h : t.type ≠ "identifier") : ¬ t.isBareCall locals parent := by
  intro hbare
  simp only [isBareCall, Bool.and_eq_true, beq_iff_eq] at hbare
  exact h (kind_eq_localVar_iff.1 hbare.1.1)

theorem not_isBareCall_of_parent {type : String} (h : type ∉ statementContainers) :
    ¬ t.isBareCall locals (some type) := by
  simp [isBareCall, h]

theorem ownRoles_convert : (convert file locals parent t).OwnRoles := by
  by_cases h : t.isBareCall locals parent
  . rw [convert_bareCall h]
    constructor <;> simp [roles]
  . rw [convert_row h]
    constructor
    . rw [List.Nodup, List.pairwise_map]
      apply t.roles_pairwise.imp
      intro a b hab
      exact hab.1
    . rintro ⟨name, value⟩ hentry
      rcases List.mem_append.1 hentry with htext | hchild
      . rcases (mem_textRoles htext).2 with hvalue | hvalue
        . exact .inl hvalue
        . exact .inr (.inl hvalue)
      . obtain ⟨c, i, position, hc, _, hvalue⟩ := mem_childRoles_iff.1 hchild
        refine .inr (.inr ⟨position, hvalue, ?_⟩)
        rw [children, List.length_map]
        exact (List.getElem?_eq_some_iff.1 hc).1
    . apply t.roles_pairwise.imp
      intro a b hab
      exact hab.2

theorem lookup_eq_some_of_mem {entries : List (String × RoleValue)} {name : String}
    {value : RoleValue} (hnodup : (entries.map (·.1)).Nodup) (h : (name, value) ∈ entries) :
    entries.lookup name = some value := by
  induction entries with
  | nil => simp at h
  | cons entry entries ih =>
    obtain ⟨other, filling⟩ := entry
    rw [List.map_cons, List.nodup_cons] at hnodup
    rw [List.lookup_cons]
    rcases List.mem_cons.1 h with hfirst | hrest
    . cases hfirst
      simp
    . have hne : (name == other) = false := by
        apply beq_false_of_ne
        rintro rfl
        exact hnodup.1 (List.mem_map.2 ⟨_, hrest, rfl⟩)
      rw [hne]
      exact ih hnodup.2 hrest

theorem filled?_of_mem {n : Node} {name : String} {value : RoleValue} (hroles : n.OwnRoles)
    (h : (name, value) ∈ n.roles) : n.filled? name = n.target? value := by
  rw [filled?, lookup_eq_some_of_mem hroles.nodup h]
  rfl

theorem roles_convert_row (h : ¬ t.isBareCall locals parent) :
    (convert file locals parent t).roles = t.textRoles ++ t.childRoles := by
  rw [convert_row h]
  rfl

theorem mem_childRoles_of_lookup {name : String} {value : RoleValue}
    (hbare : ¬ t.isBareCall locals parent) (hmessage : name ≠ "message")
    (hoperator : name ≠ "operator")
    (h : (convert file locals parent t).roles.lookup name = some value) :
    (name, value) ∈ t.childRoles := by
  have hmem := mem_of_lookup_eq_some h
  rw [roles_convert_row hbare] at hmem
  rcases List.mem_append.1 hmem with htext | hchild
  . rcases (mem_textRoles htext).1 with hname | hname
    . exact absurd hname hmessage
    . exact absurd hname hoperator
  . exact hchild

theorem filled?_child {field name : String} {c : ParseTree} (hbare : ¬ t.isBareCall locals parent)
    (hfield : (field, name) ∈ t.fields) (hc : t.child? field = some c) (hnamed : c.isNamed)
    (htrivia : ¬ c.isTrivia) :
    (convert file locals parent t).filled? name =
      some (.node (convert file locals (some t.type) c)) := by
  obtain ⟨i, hfinds, hi⟩ := child?_eq_some_iff.1 hc
  -- No role is filled from the field of the method, so this child is none that a call drops.
  have hmethod : ¬ t.finds "method" i := by
    intro hmethod
    have h₁ := field_of_finds hmethod hi
    have h₂ := field_of_finds hfinds hi
    rw [h₁, Option.some.injEq] at h₂
    exact (ne_of_mem_fields hfield).1 h₂.symm
  have hmem : (c, i) ∈ t.converted := by
    rw [mem_converted_iff]
    exact ⟨hi, by simp [converts, hnamed, htrivia, hmethod]⟩
  obtain ⟨position, hposition⟩ := List.mem_iff_getElem?.1 hmem
  have hrole : (name, .child position) ∈ (convert file locals parent t).roles := by
    rw [roles_convert_row hbare, List.mem_append, mem_childRoles_iff]
    exact .inr ⟨c, i, position, hposition, (roleAt_eq_some_iff hi).2 ⟨field, hfield, hfinds⟩, rfl⟩
  rw [filled?_of_mem ownRoles_convert hrole, convert_row hbare]
  simp [target?, children, hposition]

theorem filled?_none {field name : String} (hbare : ¬ t.isBareCall locals parent)
    (hfield : (field, name) ∈ t.fields) (hc : t.child? field = none) :
    (convert file locals parent t).filled? name = none := by
  obtain ⟨_, hmessage, hoperator⟩ := ne_of_mem_fields hfield
  rw [filled?, Option.bind_eq_none_iff]
  intro value hvalue
  have hchild := mem_childRoles_of_lookup hbare hmessage hoperator hvalue
  obtain ⟨c, i, position, hposition, hrole, _⟩ := mem_childRoles_iff.1 hchild
  have hi := (mem_converted_iff.1 (List.mem_of_getElem? hposition)).1
  obtain ⟨other, hother, hfinds⟩ := (roleAt_eq_some_iff hi).1 hrole
  rw [field_unique hother hfield] at hfinds
  rw [child?_eq_some_iff.2 ⟨i, hfinds, hi⟩] at hc
  cases hc

theorem textOf?_child {name : String} (hbare : ¬ t.isBareCall locals parent)
    (hmessage : name ≠ "message") (hoperator : name ≠ "operator") :
    (convert file locals parent t).textOf? name = none := by
  rw [textOf?, filled?, Option.bind_eq_none_iff]
  intro target htarget
  obtain ⟨value, hvalue, htarget⟩ := Option.bind_eq_some_iff.1 htarget
  have hchild := mem_childRoles_of_lookup hbare hmessage hoperator hvalue
  obtain ⟨_, _, position, _, _, rfl⟩ := mem_childRoles_iff.1 hchild
  obtain ⟨_, _, rfl⟩ := Option.map_eq_some_iff.1 htarget
  rfl

end Node

end MigrationLint
