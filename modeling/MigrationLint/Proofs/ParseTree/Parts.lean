import Mathlib.Data.List.Basic
import MigrationLint.Node.OfParseTree

/-!
This module contains the parts of a row said by the positions of its children: which children are
converted, and which roles they fill. A field of a row is found at one position at most, so a part
fills one role at most and a role is filled by one part at most.
-/

namespace MigrationLint

namespace ParseTree

theorem kind_assignment {t : ParseTree} (h : t.type = "assignment") :
    t.kind =
      ((t.child? "left").bind fun left => assignmentTable.lookup left.type).getD .unknown := by
  simp [kind, h]

theorem kind_of_ne_assignment {t : ParseTree} (h : t.type ≠ "assignment") :
    t.kind = (kindTable.lookup t.type).getD .unknown := by
  simp [kind, h]

theorem mem_of_lookup_eq_some {α : Type} {entries : List (String × α)} {name : String} {a : α}
    (h : entries.lookup name = some a) : (name, a) ∈ entries := by
  obtain ⟨before, after, rfl, _⟩ := List.lookup_eq_some_iff.1 h
  simp

theorem kind_cases (t : ParseTree) :
    t.kind = .unknown
      ∨ (t.type = "assignment"
          ∧ ∃ left, t.child? "left" = some left ∧ (left.type, t.kind) ∈ assignmentTable)
      ∨ (t.type ≠ "assignment" ∧ (t.type, t.kind) ∈ kindTable) := by
  by_cases htype : t.type = "assignment"
  . rw [kind_assignment htype]
    cases hleft : t.child? "left" with
    | none => simp
    | some left =>
      cases hkind : assignmentTable.lookup left.type with
      | none => simp [hkind]
      | some kind =>
        refine .inr (.inl ⟨htype, left, rfl, ?_⟩)
        simpa [hkind] using mem_of_lookup_eq_some hkind
  . rw [kind_of_ne_assignment htype]
    cases hkind : kindTable.lookup t.type with
    | none => simp
    | some kind =>
      refine .inr (.inr ⟨htype, ?_⟩)
      simpa using mem_of_lookup_eq_some hkind

theorem kind_eq_iff_type {t : ParseTree} {kind : NodeKind} {type : String}
    (hkind : kind ≠ .unknown) (htype : type ≠ "assignment")
    (hlookup : kindTable.lookup type = some kind)
    (hassign : ∀ entry ∈ assignmentTable, entry.2 ≠ kind)
    (htable : ∀ entry ∈ kindTable, entry.2 = kind → entry.1 = type) :
    t.kind = kind ↔ t.type = type := by
  constructor
  . intro h
    rcases t.kind_cases with hk | ⟨_, left, _, hk⟩ | ⟨_, hk⟩
    . exact absurd (h.symm.trans hk) hkind
    . exact absurd h (hassign _ hk)
    . exact htable _ hk h
  . intro h
    rw [kind_of_ne_assignment (by rw [h]; exact htype), h, hlookup]
    rfl

theorem kind_eq_call_iff {t : ParseTree} : t.kind = .call ↔ t.type = "call" := by
  apply kind_eq_iff_type <;> decide

theorem kind_eq_localVar_iff {t : ParseTree} : t.kind = .localVar ↔ t.type = "identifier" := by
  apply kind_eq_iff_type <;> decide

theorem kind_eq_instanceVar_iff {t : ParseTree} :
    t.kind = .instanceVar ↔ t.type = "instance_variable" := by
  apply kind_eq_iff_type <;> decide

theorem kind_eq_operatorAssign_iff {t : ParseTree} :
    t.kind = .operatorAssign ↔ t.type = "operator_assignment" := by
  apply kind_eq_iff_type <;> decide

theorem kind_eq_assign_iff {t : ParseTree} {kind : NodeKind} {type : String}
    (hkind : kind ≠ .unknown) (hlookup : assignmentTable.lookup type = some kind)
    (hassign : ∀ entry ∈ assignmentTable, entry.2 = kind → entry.1 = type)
    (htable : ∀ entry ∈ kindTable, entry.2 ≠ kind) :
    t.kind = kind ↔
      t.type = "assignment" ∧ ∃ left, t.child? "left" = some left ∧ left.type = type := by
  constructor
  . intro h
    rcases t.kind_cases with hk | ⟨htype, left, hleft, hk⟩ | ⟨_, hk⟩
    . exact absurd (h.symm.trans hk) hkind
    . exact ⟨htype, left, hleft, hassign _ hk h⟩
    . exact absurd h (htable _ hk)
  . intro ⟨htype, left, hleft, hk⟩
    rw [kind_assignment htype, hleft]
    simp [hk, hlookup]

theorem kind_eq_localAssign_iff {t : ParseTree} :
    t.kind = .localAssign ↔
      t.type = "assignment" ∧ ∃ left, t.child? "left" = some left ∧ left.type = "identifier" := by
  apply kind_eq_assign_iff <;> decide

theorem kind_eq_instanceAssign_iff {t : ParseTree} :
    t.kind = .instanceAssign ↔
      t.type = "assignment"
        ∧ ∃ left, t.child? "left" = some left ∧ left.type = "instance_variable" := by
  apply kind_eq_assign_iff <;> decide

def finds (t : ParseTree) (field : String) (position : Nat) : Bool :=
  t.children.findIdx? (·.field == some field) == some position

def converts (t : ParseTree) (position : Nat) (c : ParseTree) : Bool :=
  c.isNamed && !c.isTrivia && !(t.type == "call" && t.finds "method" position)

def leadAt (t : ParseTree) (position : Nat) (c : ParseTree) : Option String :=
  c.field.filter fun field => t.finds field position

def roleAt (t : ParseTree) (position : Nat) (c : ParseTree) : Option String :=
  (t.leadAt position c).bind fun field => t.fields.lookup field

def converted (t : ParseTree) : List (ParseTree × Nat) :=
  t.children.zipIdx.filter fun (c, position) => t.converts position c

theorem finds_iff {t : ParseTree} {field : String} {i : Nat} :
    t.finds field i ↔ t.children.findIdx? (·.field == some field) = some i := by
  simp [finds]

theorem field_of_finds {t c : ParseTree} {field : String} {i : Nat} (h : t.finds field i)
    (hc : t.children[i]? = some c) : c.field = some field := by
  rw [finds_iff] at h
  obtain ⟨hi, hfield, _⟩ := List.findIdx?_eq_some_iff_getElem.1 h
  rw [List.getElem?_eq_getElem hi] at hc
  cases hc
  simpa using hfield

theorem finds_unique {t : ParseTree} {field : String} {i j : Nat} (hi : t.finds field i)
    (hj : t.finds field j) : i = j := by
  rw [finds_iff] at hi hj
  rw [hi] at hj
  simpa using hj

theorem child?_eq_some_iff {t c : ParseTree} {field : String} :
    t.child? field = some c ↔ ∃ i, t.finds field i ∧ t.children[i]? = some c := by
  simp only [child?, finds_iff]
  constructor
  . intro h
    obtain ⟨hc, i, hi, rfl, hbefore⟩ := List.find?_eq_some_iff_getElem.1 h
    refine ⟨i, ?_, List.getElem?_eq_getElem hi⟩
    rw [List.findIdx?_eq_some_iff_getElem]
    exact ⟨hi, hc, fun j hj => by simpa using hbefore j hj⟩
  . intro ⟨i, hi, hc⟩
    obtain ⟨hlt, hfield, hbefore⟩ := List.findIdx?_eq_some_iff_getElem.1 hi
    rw [List.getElem?_eq_getElem hlt] at hc
    cases hc
    rw [List.find?_eq_some_iff_getElem]
    exact ⟨hfield, i, hlt, rfl, fun j hj => by simpa using hbefore j hj⟩

theorem findIdx?_cons_beq_zero {p : ParseTree → Bool} {c : ParseTree} {cs : List ParseTree} :
    ((c :: cs).findIdx? p == some 0) = p c := by
  rw [List.findIdx?_cons]
  cases p c <;> cases cs.findIdx? p <;> simp

theorem findIdx?_cons_beq_succ {p : ParseTree → Bool} {c : ParseTree} {cs : List ParseTree}
    {i : Nat} : ((c :: cs).findIdx? p == some (i + 1)) = (!p c && cs.findIdx? p == some i) := by
  rw [List.findIdx?_cons]
  cases p c <;> cases cs.findIdx? p <;> simp

-- The fields that were seen grow along the recursion, so they are arbitrary here. A field that was
-- seen before a child is refused either way: by the list, or because its first child stands
-- earlier.
theorem leads_getElem? (seen : List String) (cs : List ParseTree) (i : Nat) :
    (leads seen cs)[i]? = cs[i]?.map fun c =>
      (c.field.filter fun field =>
        field ∉ seen && cs.findIdx? (·.field == some field) == some i, c) := by
  induction cs generalizing seen i with
  | nil => simp [leads]
  | cons c cs ih =>
    unfold leads
    cases i with
    | zero =>
      simp only [findIdx?_cons_beq_zero]
      cases hc : c.field with
      | none => simp
      | some field =>
        by_cases hseen : field ∈ seen
        . simp [hc, hseen, Option.filter]
        . simp [hc, hseen, Option.filter]
    | succ i =>
      simp only [findIdx?_cons_beq_succ]
      cases hc : c.field with
      | none => simp [ih]
      | some field =>
        by_cases hseen : field ∈ seen
        . simp only [hseen, ↓reduceIte, List.getElem?_cons_succ, ih]
          congr 1
          funext d
          congr 2
          funext name
          by_cases hname : field = name
          . simp [← hname, hseen]
          . simp [beq_false_of_ne hname]
        . simp only [hseen, ↓reduceIte, List.getElem?_cons_succ, ih]
          congr 1
          funext d
          congr 2
          funext name
          by_cases hname : field = name
          . simp [← hname]
          . simp [beq_false_of_ne hname, Ne.symm hname]

theorem leads_eq (t : ParseTree) :
    leads [] t.children = t.children.zipIdx.map fun (c, i) => (t.leadAt i c, c) := by
  apply List.ext_getElem?
  intro i
  rw [leads_getElem?]
  simp [leadAt, finds, Function.comp_def]

theorem leadAt_eq_some_iff {t c : ParseTree} {field : String} {i : Nat}
    (hc : t.children[i]? = some c) : t.leadAt i c = some field ↔ t.finds field i := by
  simp only [leadAt, Option.filter_eq_some_iff]
  constructor
  . intro h
    exact h.2
  . intro h
    exact ⟨field_of_finds h hc, h⟩

theorem isPart_eq_converts {t c : ParseTree} {i : Nat} (hc : t.children[i]? = some c) :
    isPart t.kind (t.leadAt i c) c = t.converts i c := by
  have hkind : (t.kind == .call) = (t.type == "call") := by
    rw [Bool.eq_iff_iff, beq_iff_eq, beq_iff_eq]
    exact kind_eq_call_iff
  have hlead : (t.leadAt i c == some "method") = t.finds "method" i := by
    rw [Bool.eq_iff_iff, beq_iff_eq]
    exact leadAt_eq_some_iff hc
  rw [isPart, converts, hkind, hlead]

theorem parts_eq (t : ParseTree) :
    t.parts = t.converted.map fun (c, i) => (t.roleAt i c, c) := by
  unfold parts converted
  rw [leads_eq, List.filterMap_map, ← List.filterMap_eq_map', List.filterMap_filter]
  apply List.filterMap_congr
  intro (c, i) hc
  rw [List.mk_mem_zipIdx_iff_getElem?] at hc
  simp only [Function.comp_apply]
  rw [isPart_eq_converts hc]
  rfl

end ParseTree

end MigrationLint
