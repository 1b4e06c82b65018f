import MigrationLint.Proofs.Node.Roles

/-!
This module contains the roles that a row records, said by the type of the row. A call records its
message and an operator assignment its operator. Every child that is converted and stands first in
its field fills the role that the type of the row gives to this field.
-/

namespace MigrationLint

namespace ParseTree

/--
The roles that the fields of a row fill, by the type of the row. Rows of another type have none.
-/
def roleTable : List (String × List (String × String)) :=
  [("assignment", [("left", "left_value"), ("right", "right_value")]),
   ("operator_assignment", [("left", "left_value"), ("right", "right_value")]),
   ("call", [("receiver", "subject"), ("arguments", "arguments"), ("block", "block")]),
   ("class", [("name", "name"), ("superclass", "superclass"), ("body", "body")]),
   ("module", [("name", "name"), ("body", "body")]),
   ("method", [("name", "name"), ("parameters", "parameters"), ("body", "body")]),
   ("singleton_method",
    [("object", "subject"), ("name", "name"), ("parameters", "parameters"), ("body", "body")]),
   ("if",
    [("condition", "condition"), ("consequence", "consequence"), ("alternative", "alternative")]),
   ("if_modifier",
    [("condition", "condition"), ("consequence", "consequence"), ("alternative", "alternative")]),
   ("unless",
    [("condition", "condition"), ("consequence", "consequence"), ("alternative", "alternative")]),
   ("unless_modifier",
    [("condition", "condition"), ("consequence", "consequence"), ("alternative", "alternative")]),
   ("while", [("condition", "condition"), ("body", "body")]),
   ("while_modifier", [("condition", "condition"), ("body", "body")]),
   ("until", [("condition", "condition"), ("body", "body")]),
   ("until_modifier", [("condition", "condition"), ("body", "body")]),
   ("pair", [("key", "key"), ("value", "value")]),
   ("scope_resolution", [("scope", "scope"), ("name", "name")])]

variable {row : ParseTree}

theorem fieldsOfKind_of_mem_kindTable :
    ∀ entry ∈ kindTable, fieldsOfKind entry.2 = (roleTable.lookup entry.1).getD [] := by
  decide

theorem isSome_lookup_kindTable :
    ∀ entry ∈ roleTable, entry.1 ≠ "assignment" → (kindTable.lookup entry.1).isSome := by
  decide

theorem fields_eq_roleTable (row : ParseTree) :
    row.fields = (roleTable.lookup row.type).getD [] := by
  by_cases htype : row.type = "assignment"
  . rw [fields, if_pos htype, htype]
    rfl
  . rw [fields, if_neg htype, kind_of_ne_assignment htype]
    cases hkind : kindTable.lookup row.type with
    | some kind => exact fieldsOfKind_of_mem_kindTable _ (mem_of_lookup_eq_some hkind)
    | none =>
      have hroles : roleTable.lookup row.type = none := by
        rw [Option.eq_none_iff_forall_ne_some]
        intro roles hroles
        have hsome := isSome_lookup_kindTable _ (mem_of_lookup_eq_some hroles) htype
        simp [hkind] at hsome
      rw [hroles]
      rfl

/--
The row is anonymous and its text ends in an equals sign.
-/
def SpellsOperator (c : ParseTree) : Prop :=
  ¬ c.isNamed ∧ ∃ start, c.text = start ++ "="

theorem isOperator_iff {c : ParseTree} : isOperator c ↔ SpellsOperator c := by
  have hlast : c.text.toList.getLast? = some '=' ↔ ∃ start, c.text = start ++ "=" := by
    rw [List.getLast?_eq_some_iff]
    constructor
    . intro ⟨start, hstart⟩
      refine ⟨String.ofList start, ?_⟩
      rw [← String.toList_inj, hstart]
      simp
    . intro ⟨start, hstart⟩
      refine ⟨start.toList, ?_⟩
      rw [hstart]
      simp
  simp [isOperator, SpellsOperator, hlast]

/--
The roles of a row that are filled with texts: the message of a call, which is the text of the child
in the field of the method or else `call`, and the operator of an operator assignment, which is the
text of the first child that spells one.
-/
inductive RecordsTexts (row : ParseTree) : List (String × RoleValue) → Prop where
  | message {method : ParseTree} (htype : row.type = "call")
      (hmethod : row.child? "method" = some method) :
      RecordsTexts row [("message", .text method.text)]
  | sugar (htype : row.type = "call") (hmethod : row.child? "method" = none) :
      RecordsTexts row [("message", .text "call")]
  | operator {before after : List ParseTree} {c : ParseTree}
      (htype : row.type = "operator_assignment") (hchildren : row.children = before ++ c :: after)
      (hbefore : ∀ d ∈ before, ¬ SpellsOperator d) (hoperator : SpellsOperator c) :
      RecordsTexts row [("operator", .text c.text)]
  | noOperator (htype : row.type = "operator_assignment")
      (hchildren : ∀ c ∈ row.children, ¬ SpellsOperator c) :
      RecordsTexts row [("operator", .absent)]
  | nothing (hcall : row.type ≠ "call") (hoperator : row.type ≠ "operator_assignment") :
      RecordsTexts row []

theorem recordsTexts_textRoles (row : ParseTree) : RecordsTexts row row.textRoles := by
  rw [textRoles_eq]
  split
  . next htype =>
    rw [message]
    split
    . next hmethod => exact .message htype hmethod
    . next hmethod => exact .sugar htype (by simpa using hmethod)
  . next hcall =>
    split
    . next htype =>
      cases hfind : row.children.find? isOperator with
      | some c =>
        obtain ⟨hc, before, after, hchildren, hbefore⟩ := List.find?_eq_some_iff_append.1 hfind
        refine .operator htype hchildren ?_ (isOperator_iff.1 hc)
        intro d hd
        rw [← isOperator_iff]
        simpa using hbefore d hd
      | none =>
        refine .noOperator htype ?_
        intro c hc
        rw [← isOperator_iff]
        exact List.find?_eq_none.1 hfind c hc
    . next hoperator => exact .nothing hcall hoperator

/--
Get the role that the child at a position fills: the one of the field in which it stands first.
-/
def filledAt (row : ParseTree) (position : Nat) : Option String :=
  (((roleTable.lookup row.type).getD []).find? fun entry => row.finds entry.1 position).map (·.2)

theorem filledAt_eq_roleAt {c : ParseTree} {i : Nat} (hc : row.children[i]? = some c) :
    row.filledAt i = row.roleAt i c := by
  rw [filledAt, ← fields_eq_roleTable]
  apply Option.ext
  intro name
  rw [roleAt_eq_some_iff hc, Option.map_eq_some_iff]
  constructor
  . rintro ⟨⟨field, name⟩, hfind, rfl⟩
    exact ⟨field, List.mem_of_find?_eq_some hfind, by simpa using List.find?_some hfind⟩
  . intro ⟨field, hfield, hfinds⟩
    have hsome : (row.fields.find? fun entry => row.finds entry.1 i).isSome := by
      rw [List.find?_isSome]
      exact ⟨_, hfield, hfinds⟩
    obtain ⟨⟨first, other⟩, hfirst⟩ := Option.isSome_iff_exists.1 hsome
    have hother := lookup_fields (List.mem_of_find?_eq_some hfirst)
    have hfound : row.finds first i := by simpa using List.find?_some hfirst
    -- The child has one field only, so the field that is found is the one at hand.
    have hsame : first = field := by
      have hfield₁ := field_of_finds hfound hc
      have hfield₂ := field_of_finds hfinds hc
      rw [hfield₁] at hfield₂
      exact Option.some.inj hfield₂
    rw [hsame, lookup_fields hfield, Option.some.injEq] at hother
    exact ⟨_, hfirst, hother.symm⟩

theorem childRoles_eq_filledAt (row : ParseTree) :
    row.childRoles = row.converted.zipIdx.filterMap fun ((_, i), position) =>
      (row.filledAt i).map fun name => (name, .child position) := by
  rw [childRoles]
  apply List.filterMap_congr
  rintro ⟨⟨c, i⟩, position⟩ hmem
  have hc := (mem_converted_iff.1 (mem_of_mem_zipIdx hmem)).1
  simp only [filledAt_eq_roleAt hc]

/--
The roles of a row, in order: first the ones that are filled with texts, then the ones that are
filled by converted children, in the order of the children.
-/
def RecordsRoles (row : ParseTree) (roles : List (String × RoleValue)) : Prop :=
  ∃ texts, row.RecordsTexts texts ∧ roles = texts ++
    row.converted.zipIdx.filterMap fun ((_, i), position) =>
      (row.filledAt i).map fun name => (name, .child position)

theorem recordsRoles_row (row : ParseTree) :
    row.RecordsRoles (row.textRoles ++ row.childRoles) := by
  refine ⟨row.textRoles, row.recordsTexts_textRoles, ?_⟩
  rw [childRoles_eq_filledAt]

end ParseTree

end MigrationLint
