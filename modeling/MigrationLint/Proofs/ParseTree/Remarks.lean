import MigrationLint.Node.OfParseTree
import MigrationLint.Proofs.List

/-!
This module contains trees that differ in remarks only: named rows of trivia without a field and
without children, which may be added and dropped at any places below the root. Such trees agree in
all that a row says about its children: which child fills a field, which names it binds, which of
its children are converted and what they fill.
-/

namespace MigrationLint

namespace ParseTree

structure IsRemark (t : ParseTree) : Prop where
  isNamed : t.isNamed
  isTrivia : t.isTrivia
  field_eq : t.field = none
  children_eq : t.children = []

/--
Labels that agree in all but the flags of faults.
-/
structure Label.SameCode (first second : Label) : Prop where
  type_eq : first.type = second.type
  isNamed_eq : first.isNamed = second.isNamed
  text?_eq : first.text? = second.text?
  startRow_eq : first.startRow = second.startRow
  field_eq : first.field = second.field

/--
Two lists of trees are related tree by tree, but for remarks in either list.
-/
inductive Aligned (R : ParseTree → ParseTree → Prop) : List ParseTree → List ParseTree → Prop where
  | nil : Aligned R [] []
  | keep {c d : ParseTree} {cs ds : List ParseTree} (h : R c d) (hrest : Aligned R cs ds) :
      Aligned R (c :: cs) (d :: ds)
  | drop {c : ParseTree} {cs ds : List ParseTree} (h : c.IsRemark) (hrest : Aligned R cs ds) :
      Aligned R (c :: cs) ds
  | add {d : ParseTree} {cs ds : List ParseTree} (h : d.IsRemark) (hrest : Aligned R cs ds) :
      Aligned R cs (d :: ds)

/--
Two trees differ in remarks only.
-/
inductive SameCode : ParseTree → ParseTree → Prop where
  | node {first second : Label} {cs ds : List ParseTree} (hlabel : first.SameCode second)
      (hchildren : Aligned SameCode cs ds) : SameCode (node first cs) (node second ds)

section Aligned

variable {R : ParseTree → ParseTree → Prop} {as bs cs ds : List ParseTree}
variable {p : ParseTree → Bool}

theorem Aligned.append (h : Aligned R as bs) (hrest : Aligned R cs ds) :
    Aligned R (as ++ cs) (bs ++ ds) := by
  induction h with
  | nil => exact hrest
  | keep h _ ih => exact .keep h ih
  | drop h _ ih => exact .drop h ih
  | add h _ ih => exact .add h ih

theorem Aligned.reverse (h : Aligned R as bs) : Aligned R as.reverse bs.reverse := by
  induction h with
  | nil => exact .nil
  | keep h _ ih => simpa using ih.append (.keep h .nil)
  | drop h _ ih => simpa using ih.append (.drop h .nil)
  | add h _ ih => simpa using ih.append (.add h .nil)

theorem Aligned.filter (hp : ∀ c d, R c d → p c = p d) (h : Aligned R as bs) :
    Aligned R (as.filter p) (bs.filter p) := by
  induction h with
  | nil => exact .nil
  | keep h _ ih =>
    rw [List.filter_cons, List.filter_cons, hp _ _ h]
    split
    . exact .keep h ih
    . exact ih
  | drop h _ ih =>
    rw [List.filter_cons]
    split
    . exact .drop h ih
    . exact ih
  | add h _ ih =>
    rw [List.filter_cons]
    split
    . exact .add h ih
    . exact ih

/--
What holds of no remark picks trees that are related one by one.
-/
theorem Aligned.forall₂_filter (hp : ∀ c d, R c d → p c = p d)
    (hremark : ∀ c, IsRemark c → p c = false) (h : Aligned R as bs) :
    List.Forall₂ R (as.filter p) (bs.filter p) := by
  induction h with
  | nil => exact .nil
  | keep h _ ih =>
    rw [List.filter_cons, List.filter_cons, hp _ _ h]
    split
    . exact .cons h ih
    . exact ih
  | drop h _ ih => simpa [hremark _ h] using ih
  | add h _ ih => simpa [hremark _ h] using ih

theorem Aligned.rel_find? (hp : ∀ c d, R c d → p c = p d)
    (hremark : ∀ c, IsRemark c → p c = false) (h : Aligned R as bs) :
    Option.Rel R (as.find? p) (bs.find? p) := by
  rw [← List.head?_filter, ← List.head?_filter, List.head?_eq_getElem?, List.head?_eq_getElem?]
  exact rel_getElem? (h.forall₂_filter hp hremark) 0

end Aligned

variable {s t : ParseTree}

namespace IsRemark

theorem type_mem (h : t.IsRemark) : t.type ∈ trivia := by
  simpa [ParseTree.isTrivia] using h.isTrivia

theorem isIdentifier_eq (h : t.IsRemark) : t.isIdentifier = false := by
  have hall : ∀ type ∈ trivia, (type == "identifier") = false := by
    decide
  exact hall _ h.type_mem

theorem ownNames_eq (h : t.IsRemark) : t.ownNames = [] := by
  have hall : ∀ type ∈ trivia, ¬ (type = "assignment" ∨ type = "operator_assignment")
      ∧ type ∉ bindingContainers ∧ type ∉ namedParameters ∧ type ≠ "for" := by
    decide
  obtain ⟨hassignment, hcontainer, hparameter, hloop⟩ := hall _ h.type_mem
  rw [ownNames, if_neg hassignment, if_neg hcontainer, if_neg hparameter, if_neg hloop]

theorem namedChildren_eq (h : t.IsRemark) : t.namedChildren = [] := by
  rw [namedChildren, h.children_eq]
  rfl

theorem localNames_go (h : t.IsRemark) (stack : List ParseTree) (names : List String) :
    localNames.go (t :: stack) names = localNames.go stack names := by
  rw [localNames.go, h.namedChildren_eq, h.ownNames_eq]
  rfl

theorem isPart_eq (h : t.IsRemark) (kind : NodeKind) (lead : Option String) :
    isPart kind lead t = false := by
  simp [isPart, h.isTrivia]

theorem leads_cons (h : t.IsRemark) (seen : List String) (cs : List ParseTree) :
    leads seen (t :: cs) = (none, t) :: leads seen cs := by
  simp [leads, h.field_eq]

end IsRemark

theorem Aligned.refl {R : ParseTree → ParseTree → Prop} {cs : List ParseTree}
    (h : ∀ c ∈ cs, R c c) : Aligned R cs cs := by
  induction cs with
  | nil => exact .nil
  | cons c cs ih =>
    obtain ⟨hc, hcs⟩ := List.forall_mem_cons.1 h
    exact .keep hc (ih hcs)

theorem Label.SameCode.refl (label : Label) : label.SameCode label :=
  ⟨rfl, rfl, rfl, rfl, rfl⟩

theorem SameCode.refl (t : ParseTree) : t.SameCode t := by
  obtain ⟨label, children⟩ := t
  apply SameCode.node
  . exact .refl label
  . apply Aligned.refl
    intro c hc
    exact SameCode.refl c
termination_by t.size
decreasing_by exact size_lt_of_mem_children hc

namespace SameCode

theorem label (h : s.SameCode t) : s.label.SameCode t.label := by
  cases h with
  | node hlabel => exact hlabel

theorem children (h : s.SameCode t) : Aligned SameCode s.children t.children := by
  cases h with
  | node _ hchildren => exact hchildren

theorem type_eq (h : s.SameCode t) : s.type = t.type :=
  h.label.type_eq

theorem isNamed_eq (h : s.SameCode t) : s.isNamed = t.isNamed :=
  h.label.isNamed_eq

theorem field_eq (h : s.SameCode t) : s.field = t.field :=
  h.label.field_eq

theorem text_eq (h : s.SameCode t) : s.text = t.text := by
  rw [ParseTree.text, ParseTree.text, h.label.text?_eq]

theorem line_eq (h : s.SameCode t) : s.line = t.line := by
  rw [line, line, h.label.startRow_eq]

theorem isIdentifier_eq (h : s.SameCode t) : s.isIdentifier = t.isIdentifier := by
  rw [isIdentifier, isIdentifier, h.type_eq]

theorem isTrivia_eq (h : s.SameCode t) : s.isTrivia = t.isTrivia := by
  rw [isTrivia, isTrivia, h.type_eq]

theorem rel_child? (h : s.SameCode t) (field : String) :
    Option.Rel SameCode (s.child? field) (t.child? field) := by
  apply h.children.rel_find?
  . intro c d h
    rw [h.field_eq]
  . intro c h
    rw [h.field_eq]
    rfl

theorem identifierIn_eq (h : s.SameCode t) (field : String) :
    s.identifierIn field = t.identifierIn field := by
  unfold identifierIn
  rw [← Option.toList_map, ← Option.toList_map]
  congr 1
  apply map_filter_eq_of_rel (h.rel_child? field)
  . intro c d h
    exact h.isIdentifier_eq
  . intro c d h
    exact h.text_eq

theorem text_child?_eq (h : s.SameCode t) (field : String) :
    (s.child? field).map text = (t.child? field).map text := by
  have hchild := h.rel_child? field
  generalize s.child? field = c, t.child? field = d at hchild ⊢
  cases hchild with
  | none => rfl
  | some h => rw [Option.map_some, Option.map_some, h.text_eq]

theorem ownNames_eq (h : s.SameCode t) : s.ownNames = t.ownNames := by
  have hidentifiers : (s.namedChildren.filter isIdentifier).map text =
      (t.namedChildren.filter isIdentifier).map text := by
    unfold namedChildren
    rw [List.filter_filter, List.filter_filter]
    refine map_eq_of_forall₂ (h.children.forall₂_filter ?_ ?_) ?_
    . intro c d h
      rw [h.isIdentifier_eq, h.isNamed_eq]
    . intro c h
      rw [h.isIdentifier_eq, Bool.false_and]
    . intro c _ d h
      exact h.text_eq
  have hname : (s.child? "name").toList.map text = (t.child? "name").toList.map text := by
    rw [← Option.toList_map, ← Option.toList_map, h.text_child?_eq]
  unfold ownNames
  rw [h.type_eq, h.identifierIn_eq "left", h.identifierIn_eq "pattern", hidentifiers, hname]

theorem kind_eq (h : s.SameCode t) : s.kind = t.kind := by
  have hchild := h.rel_child? "left"
  unfold kind
  rw [h.type_eq]
  generalize s.child? "left" = c, t.child? "left" = d at hchild ⊢
  cases hchild with
  | none => rfl
  | some h => rw [Option.bind_some, Option.bind_some, h.type_eq]

theorem fields_eq (h : s.SameCode t) : s.fields = t.fields := by
  rw [fields, fields, h.type_eq, h.kind_eq]

theorem message_eq (h : s.SameCode t) : s.message = t.message := by
  have hchild := h.rel_child? "method"
  unfold message
  generalize s.child? "method" = c, t.child? "method" = d at hchild ⊢
  cases hchild with
  | none => rfl
  | some h => exact h.text_eq

theorem rel_operator (h : s.SameCode t) :
    Option.Rel SameCode (s.children.find? isOperator) (t.children.find? isOperator) := by
  apply h.children.rel_find?
  . intro c d h
    rw [isOperator, isOperator, h.isNamed_eq, h.text_eq]
  . intro c h
    simp [isOperator, h.isNamed]

theorem textRoles_eq (h : s.SameCode t) : s.textRoles = t.textRoles := by
  have hoperator := h.rel_operator
  unfold textRoles
  rw [h.kind_eq, h.message_eq]
  split
  . rfl
  . generalize s.children.find? isOperator = c, t.children.find? isOperator = d at hoperator ⊢
    cases hoperator with
    | none => rfl
    | some h => simp only [h.text_eq]
  . rfl

theorem isBareCall_eq (h : s.SameCode t) (locals : List String) (parent : Option String) :
    s.isBareCall locals parent = t.isBareCall locals parent := by
  rw [isBareCall, isBareCall, h.kind_eq, h.text_eq]

theorem isPart_eq (h : s.SameCode t) (kind : NodeKind) (lead : Option String) :
    isPart kind lead s = isPart kind lead t := by
  rw [isPart, isPart, h.isNamed_eq, h.isTrivia_eq]

end SameCode

theorem localNames_go_aligned (stack other : List ParseTree) (names : List String)
    (h : Aligned SameCode stack other) : localNames.go stack names = localNames.go other names := by
  cases h with
  | nil => rfl
  | @keep c d cs ds hc hrest =>
    rw [localNames.go, localNames.go, hc.ownNames_eq]
    apply localNames_go_aligned
    apply Aligned.append _ hrest
    apply Aligned.reverse
    exact hc.children.filter fun c d h => h.isNamed_eq
  | @drop c cs _ hremark hrest =>
    rw [hremark.localNames_go]
    exact localNames_go_aligned cs other names hrest
  | @add d _ ds hremark hrest =>
    rw [hremark.localNames_go]
    exact localNames_go_aligned stack ds names hrest
termination_by sizes stack + sizes other
decreasing_by
  -- Both stacks are served at once, or the one whose next row is a remark.
  . have := sizes_namedChildren_lt c
    have := sizes_namedChildren_lt d
    simp only [sizes, sizes_append, sizes_reverse]
    omega
  . subst_vars
    have := size_pos c
    simp only [sizes]
    omega
  . subst_vars
    have := size_pos d
    simp only [sizes]
    omega

theorem localNames_sameCode (h : s.SameCode t) : s.localNames = t.localNames :=
  localNames_go_aligned [s] [t] [] (.keep h .nil)

theorem exists_leads_cons {c d : ParseTree} (h : c.field = d.field) (seen : List String)
    (cs ds : List ParseTree) :
    ∃ lead next, leads seen (c :: cs) = (lead, c) :: leads next cs
      ∧ leads seen (d :: ds) = (lead, d) :: leads next ds := by
  rw [leads, leads, h]
  cases d.field with
  | none => exact ⟨none, seen, rfl, rfl⟩
  | some field =>
    by_cases hseen : field ∈ seen
    . exact ⟨none, seen, if_pos hseen, if_pos hseen⟩
    . exact ⟨some field, field :: seen, if_neg hseen, if_neg hseen⟩

/--
Two parts fill the same role, and they are related.
-/
structure SamePart (part other : Option String × ParseTree) : Prop where
  role_eq : part.1 = other.1
  sameCode : part.2.SameCode other.2

def partsOf (kind : NodeKind) (fields : List (String × String))
    (leads : List (Option String × ParseTree)) : List (Option String × ParseTree) :=
  leads.filterMap fun (lead, c) =>
    if isPart kind lead c then some (lead.bind fun field => fields.lookup field, c) else none

theorem partsOf_cons (kind : NodeKind) (fields : List (String × String)) (lead : Option String)
    (c : ParseTree) (rest : List (Option String × ParseTree)) :
    partsOf kind fields ((lead, c) :: rest) =
      if isPart kind lead c then
        (lead.bind fun field => fields.lookup field, c) :: partsOf kind fields rest
      else partsOf kind fields rest := by
  rw [partsOf, List.filterMap_cons]
  split <;> simp_all [partsOf]

theorem forall₂_partsOf {cs ds : List ParseTree} (kind : NodeKind)
    (fields : List (String × String)) (seen : List String) (h : Aligned SameCode cs ds) :
    List.Forall₂ SamePart (partsOf kind fields (leads seen cs))
      (partsOf kind fields (leads seen ds)) := by
  induction h generalizing seen with
  | nil => exact .nil
  | keep h _ ih =>
    obtain ⟨lead, next, hc, hd⟩ := exists_leads_cons h.field_eq seen _ _
    rw [hc, hd, partsOf_cons, partsOf_cons, h.isPart_eq]
    split
    . exact .cons ⟨rfl, h⟩ (ih next)
    . exact ih next
  | drop h _ ih =>
    rw [h.leads_cons, partsOf_cons, h.isPart_eq]
    exact ih seen
  | add h _ ih =>
    rw [h.leads_cons, partsOf_cons, h.isPart_eq]
    exact ih seen

theorem SameCode.forall₂_parts (h : s.SameCode t) : List.Forall₂ SamePart s.parts t.parts := by
  have hparts := forall₂_partsOf t.kind t.fields [] h.children
  unfold parts
  rw [h.kind_eq, h.fields_eq]
  exact hparts

/--
Two plans agree in all but the remarks below their parts.
-/
structure Plan.SameCode (plan other : Plan) : Prop where
  kind_eq : plan.kind = other.kind
  textRoles_eq : plan.textRoles = other.textRoles
  parts : List.Forall₂ SamePart plan.parts other.parts

theorem SameCode.plan (h : s.SameCode t) (locals : List String) (parent : Option String) :
    (s.plan locals parent).SameCode (t.plan locals parent) := by
  unfold ParseTree.plan
  rw [h.isBareCall_eq]
  split
  . exact ⟨rfl, by rw [h.text_eq], .nil⟩
  . exact ⟨h.kind_eq, h.textRoles_eq, h.forall₂_parts⟩

end ParseTree

end MigrationLint
