import MigrationLint.Node.Basic
import MigrationLint.Proofs.List

/-!
This module contains what the roles of a node lead to, seen as texts and as nodes. The kind of the
node is not asked here; a role that the kind has is answered in the same way by `role`.
-/

namespace MigrationLint

namespace Node

def Target.text? : Target → Option String
  | .text value => some value
  | .node _ => none

def Target.node? : Target → Option Node
  | .text _ => none
  | .node target => some target

def filled? (n : Node) (name : String) : Option Target :=
  (n.roles.lookup name).bind n.target?

def textOf? (n : Node) (name : String) : Option String :=
  (n.filled? name).bind Target.text?

def nodeOf? (n : Node) (name : String) : Option Node :=
  (n.filled? name).bind Target.node?

def shownOf? (n : Node) (name : String) : Option String :=
  (n.filled? name).map Target.show

theorem shownOf?_of_nodeOf? {n target : Node} {name : String} (h : n.nodeOf? name = some target) :
    n.shownOf? name = some target.text := by
  obtain ⟨filling, hfilled, htarget⟩ := Option.bind_eq_some_iff.1 h
  rw [shownOf?, hfilled]
  cases filling with
  | text value => cases htarget
  | node other =>
    cases htarget
    rfl

theorem textOf?_congr {n m : Node} (name : String) (hroles : n.roles = m.roles) :
    n.textOf? name = m.textOf? name := by
  unfold textOf? filled?
  rw [hroles]
  cases m.roles.lookup name with
  | none => rfl
  | some value =>
    cases value with
    | child position =>
      -- A child is no text, whether it is there or not.
      simp only [Option.bind_some, target?]
      cases n.children[position]? <;> cases m.children[position]? <;> rfl
    | _ => rfl

/--
Two targets are the same text, or nodes that are related.
-/
inductive Target.Rel (R : Node → Node → Prop) : Target → Target → Prop where
  | text (value : String) : Rel R (.text value) (.text value)
  | node {target other : Node} (h : R target other) : Rel R (.node target) (.node other)

section Related

variable {R : Node → Node → Prop} {n m : Node}

theorem rel_filled? (hrefl : ∀ target, R target target) (hroles : n.roles = m.roles)
    (hchildren : List.Forall₂ R n.children m.children) (name : String) :
    Option.Rel (Target.Rel R) (n.filled? name) (m.filled? name) := by
  unfold filled?
  rw [hroles]
  cases m.roles.lookup name with
  | none => exact .none
  | some value =>
    cases value with
    | text value => exact .some (.text value)
    | apart target => exact .some (.node (hrefl target))
    | absent => exact .none
    | child position =>
      have hchild := rel_getElem? hchildren position
      simp only [Option.bind_some, target?]
      generalize n.children[position]? = c, m.children[position]? = d at hchild ⊢
      cases hchild with
      | none => exact .none
      | some h => exact .some (.node h)

theorem rel_nodeOf? {name : String}
    (h : Option.Rel (Target.Rel R) (n.filled? name) (m.filled? name)) :
    Option.Rel R (n.nodeOf? name) (m.nodeOf? name) := by
  unfold nodeOf?
  generalize n.filled? name = filled, m.filled? name = other at h ⊢
  cases h with
  | none => exact .none
  | some htarget =>
    cases htarget with
    | text value => exact .none
    | node h => exact .some h

theorem shownOf?_congr {name : String}
    (htext : ∀ target other, R target other → target.text = other.text)
    (h : Option.Rel (Target.Rel R) (n.filled? name) (m.filled? name)) :
    n.shownOf? name = m.shownOf? name := by
  unfold shownOf?
  generalize n.filled? name = filled, m.filled? name = other at h ⊢
  cases h with
  | none => rfl
  | some htarget =>
    cases htarget with
    | text value => rfl
    | node h => simp only [Option.map_some, Target.show, htext _ _ h]

end Related

theorem role_eq {n : Node} {name : String} (h : name ∈ n.kind.roles) :
    n.role name = .ok (n.filled? name) := by
  rw [role, if_pos h]
  rfl

end Node

end MigrationLint
