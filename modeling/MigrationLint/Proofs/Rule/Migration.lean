import MigrationLint.Proofs.Node.Collect
import MigrationLint.Proofs.Rule.SeedData

/-!
This module contains what the rule on seed data finds in a parse tree. Conversion and rule together
report the converted rows that insert a record, said by types, fields and texts of rows alone.
-/

namespace MigrationLint

namespace ParseTree

def operator? (t : ParseTree) : Option String :=
  (t.children.find? isOperator).map text

def newVariable? (t : ParseTree) : Option String :=
  match t.child? "left", t.child? "right" with
  | some left, some right =>
    if (t.type = "assignment" ∨ t.type = "operator_assignment" ∧ t.operator? = some "||=")
        ∧ (left.type = "identifier" ∨ left.type = "instance_variable")
        ∧ right.type = "call" ∧ right.message = "new" then
      some left.text
    else none
  | _, _ => none

/--
Check whether a place inserts a record: as a call that creates one, as a bare call that creates one,
or as a call that saves one of the tracked names.
-/
def Place.inserts (locals tracked : List String) (p : Place) : Bool :=
  p.row.type == "call" && p.row.message ∈ ["create", "create!"]
    || p.isBareCall locals && p.row.text ∈ ["create", "create!"]
    || p.row.type == "call" && p.row.message ∈ ["save", "save!"]
      && (p.row.child? "receiver").any (·.text ∈ tracked)

def Exposes (t : ParseTree) (field : String) : Prop :=
  ∀ c, t.child? field = some c → c.isNamed ∧ ¬ c.isTrivia

def ExposesSides (t : ParseTree) : Prop :=
  ∀ row ∈ t.rows, ∀ field ∈ ["left", "right", "receiver"], row.Exposes field

end ParseTree

namespace Node

open ParseTree

variable {file : WideText} {locals : List String} {parent : Option String} {t : ParseTree}

theorem textOf?_message (h : t.type = "call") :
    (convert file locals parent t).textOf? "message" = some t.message := by
  have hbare : ¬ t.isBareCall locals parent := not_isBareCall_of_type (by simp [h])
  have hmem : ("message", .text t.message) ∈ (convert file locals parent t).roles := by
    rw [roles_convert_row hbare, textRoles_eq, if_pos h]
    simp
  rw [textOf?, filled?_of_mem ownRoles_convert hmem]
  rfl

theorem textOf?_operator (h : t.type = "operator_assignment") :
    (convert file locals parent t).textOf? "operator" = t.operator? := by
  have hbare : ¬ t.isBareCall locals parent := not_isBareCall_of_type (by simp [h])
  have hmem : ("operator", ((t.children.find? isOperator).map fun c => .text c.text).getD .absent)
      ∈ (convert file locals parent t).roles := by
    rw [roles_convert_row hbare, textRoles_eq, if_neg (by simp [h]), if_pos h]
    simp
  rw [textOf?, filled?_of_mem ownRoles_convert hmem, operator?]
  cases t.children.find? isOperator <;> rfl

theorem filled?_field {field name : String} (hbare : ¬ t.isBareCall locals parent)
    (hfield : (field, name) ∈ t.fields)
    (hsides : t.Exposes field) :
    (convert file locals parent t).filled? name =
      (t.child? field).map fun c => .node (convert file locals (some t.type) c) := by
  cases hc : t.child? field with
  | none => exact filled?_none hbare hfield hc
  | some c => exact filled?_child hbare hfield hc (hsides c hc).1 (hsides c hc).2

theorem sidesFit_convert : (convert file locals parent t).SidesFit := by
  by_cases hbare : t.isBareCall locals parent
  . constructor <;> simp [kind_bareCall hbare]
  . constructor
    . intro _
      exact textOf?_child hbare (by decide) (by decide)
    . intro _
      exact textOf?_child hbare (by decide) (by decide)

theorem isNewCall_convert {type : String} (h : type ∉ statementContainers) :
    (convert file locals (some type) t).isNewCall =
      (t.type == "call" && t.message == "new") := by
  rw [isNewCall, kind_row (not_isBareCall_of_parent h)]
  by_cases hcall : t.type = "call"
  . simp [kind_eq_call_iff.2 hcall, hcall, textOf?_message hcall]
  . have hkind : t.kind ≠ .call := by
      rw [ne_eq, kind_eq_call_iff]
      exact hcall
    rw [beq_false_of_ne hkind, beq_false_of_ne hcall]
    rfl

/--
Both sides of a row lead to their nodes, and the row is no statement container.
-/
structure HasSides (t : ParseTree) : Prop where
  left : ("left", "left_value") ∈ t.fields
  right : ("right", "right_value") ∈ t.fields
  container : t.type ∉ statementContainers
  identifier : t.type ≠ "identifier"

theorem hasSides_assignment (h : t.type = "assignment") : HasSides t := by
  constructor <;> simp [fields, h, assignmentFields, statementContainers]

theorem hasSides_operatorAssignment (h : t.type = "operator_assignment") : HasSides t := by
  have hkind := kind_eq_operatorAssign_iff.2 h
  constructor <;> simp [fields, h, hkind, fieldsOfKind, statementContainers]

theorem filled?_left (hsides : HasSides t)
    (hleft : t.Exposes "left") :
    (convert file locals parent t).filled? "left_value" =
      (t.child? "left").map fun c => .node (convert file locals (some t.type) c) :=
  filled?_field (not_isBareCall_of_type hsides.identifier) hsides.left hleft

theorem any_isNewCall (hsides : HasSides t)
    (hright : t.Exposes "right") :
    ((convert file locals parent t).nodeOf? "right_value").any isNewCall =
      (t.child? "right").any fun c => c.type == "call" && c.message == "new" := by
  rw [nodeOf?, filled?_field (not_isBareCall_of_type hsides.identifier) hsides.right hright]
  cases t.child? "right" with
  | none => rfl
  | some c => simp [Target.node?, isNewCall_convert hsides.container]

theorem newVariable?_eq_none (h : ∀ left, t.child? "left" = some left →
    left.type ≠ "identifier" ∧ left.type ≠ "instance_variable") : t.newVariable? = none := by
  unfold newVariable?
  split
  . next left right hleft _ =>
    rw [if_neg]
    rintro ⟨_, hvariable | hvariable, _⟩
    . exact (h left hleft).1 hvariable
    . exact (h left hleft).2 hvariable
  . rfl

theorem newName?_assignment (htype : t.type = "assignment")
    (hleft : t.Exposes "left")
    (hright : t.Exposes "right") :
    (convert file locals parent t).newName? = t.newVariable? := by
  have hsides := hasSides_assignment htype
  have hkind : (convert file locals parent t).kind = t.kind :=
    kind_row (not_isBareCall_of_type hsides.identifier)
  by_cases hassign : t.kind = .localAssign ∨ t.kind = .instanceAssign
  . rw [newName?_assign (by rw [hkind]; exact hassign), any_isNewCall hsides hright, shownOf?,
      filled?_left hsides hleft]
    rw [kind_eq_localAssign_iff, kind_eq_instanceAssign_iff, ← and_or_left, ← exists_or] at hassign
    obtain ⟨_, left, hassign⟩ := hassign
    rw [← and_or_left] at hassign
    obtain ⟨hchild, hvariable⟩ := hassign
    unfold newVariable?
    rw [hchild]
    cases t.child? "right" with
    | none => rfl
    | some right => simp [htype, hvariable, text_convert, Target.show]
  -- Any other left side gives another kind of assignment, or none.
  . rw [newName?_eq_none (by rw [hkind]; exact hassign)
      (by rw [hkind, ne_eq, kind_eq_operatorAssign_iff]; simp [htype]), newVariable?_eq_none]
    intro left hchild
    rw [kind_eq_localAssign_iff, kind_eq_instanceAssign_iff] at hassign
    simpa [htype, hchild] using hassign

theorem newName?_operatorAssignment (htype : t.type = "operator_assignment")
    (hleft : t.Exposes "left")
    (hright : t.Exposes "right") :
    (convert file locals parent t).newName? = t.newVariable? := by
  have hsides := hasSides_operatorAssignment htype
  have hkind : (convert file locals parent t).kind = .operatorAssign := by
    rw [kind_row (not_isBareCall_of_type hsides.identifier), kind_eq_operatorAssign_iff]
    exact htype
  rw [newName?_operatorAssign hkind, any_isNewCall hsides hright, nodeOf?,
    filled?_left hsides hleft, textOf?_operator htype]
  cases hchild : t.child? "left" with
  | none =>
    rw [newVariable?_eq_none (by simp [hchild])]
    simp
  | some left =>
    have hkind : (convert file locals (some t.type) left).kind = left.kind :=
      kind_row (not_isBareCall_of_parent hsides.container)
    unfold newVariable?
    rw [hchild]
    cases t.child? "right" with
    | none => rfl
    | some right =>
      have hvariable : (left.kind == .localVar || left.kind == .instanceVar) =
          decide (left.type = "identifier" ∨ left.type = "instance_variable") := by
        rw [Bool.eq_iff_iff]
        simp [kind_eq_localVar_iff, kind_eq_instanceVar_iff]
      simp only [Option.map_some, Option.bind_some, Target.node?, Option.filter, hkind, hvariable,
        Option.any_some]
      by_cases hleft : left.type = "identifier" ∨ left.type = "instance_variable"
      . by_cases hoperator : t.operator? = some "||="
        . simp [htype, hleft, hoperator, text_convert]
        . simp [htype, hoperator]
      . simp [hleft]

theorem newName?_convert
    (hleft : t.Exposes "left")
    (hright : t.Exposes "right") :
    (convert file locals parent t).newName? = t.newVariable? := by
  by_cases hassign : t.type = "assignment"
  . exact newName?_assignment hassign hleft hright
  by_cases hoperator : t.type = "operator_assignment"
  . exact newName?_operatorAssignment hoperator hleft hright
  have hvariable : t.newVariable? = none := by
    unfold newVariable?
    split
    . simp [hassign, hoperator]
    . rfl
  rw [hvariable]
  by_cases hbare : t.isBareCall locals parent
  . apply newName?_eq_none <;> simp [kind_bareCall hbare]
  . apply newName?_eq_none
    . rw [kind_row hbare, kind_eq_localAssign_iff, kind_eq_instanceAssign_iff]
      simp [hassign]
    . rw [kind_row hbare, ne_eq, kind_eq_operatorAssign_iff]
      exact hoperator

theorem shownOf?_subject (htype : t.type = "call")
    (hreceiver : t.Exposes "receiver") :
    (convert file locals parent t).shownOf? "subject" = (t.child? "receiver").map (·.text) := by
  have hfield : ("receiver", "subject") ∈ t.fields := by
    simp [fields, htype, kind_eq_call_iff.2 htype, fieldsOfKind]
  rw [shownOf?, filled?_field (not_isBareCall_of_type (by simp [htype])) hfield hreceiver]
  simp [Function.comp_def, Target.show, text_convert]

theorem inserts_bareCall (h : t.isBareCall locals parent) (tracked : List String) :
    (convert file locals parent t).inserts tracked = (t.text ∈ ["create", "create!"] : Bool) := by
  have hmessage : (convert file locals parent t).textOf? "message" = some t.text := by
    rw [convert_bareCall h]
    rfl
  have hsubject : (convert file locals parent t).shownOf? "subject" = none := by
    rw [convert_bareCall h]
    rfl
  rw [Node.inserts, kind_bareCall h, hmessage, hsubject]
  simp

theorem inserts_toNode {p : Place} (tracked : List String) (hreceiver : p.row.Exposes "receiver") :
    (p.toNode file locals).inserts tracked = p.inserts locals tracked := by
  have hplace := isBareCall_place locals p
  unfold Place.toNode Place.inserts
  by_cases htype : p.row.type = "call"
  . have hbare : ¬ p.row.isBareCall locals p.parentType := not_isBareCall_of_type (by simp [htype])
    rw [Node.inserts, kind_row hbare, kind_eq_call_iff.2 htype, textOf?_message htype,
      shownOf?_subject htype hreceiver, ← hplace, Bool.eq_false_iff.2 hbare]
    simp only [Option.any_map]
    simp [htype]
  -- Of all rows that are no calls, only bare calls become ones.
  . rw [beq_false_of_ne htype]
    simp only [Bool.false_and, Bool.false_or, Bool.or_false]
    cases hbare : p.isBareCall locals with
    | true =>
      rw [inserts_bareCall (by rw [hplace]; exact hbare)]
      rfl
    | false =>
      have hkind : p.row.kind ≠ .call := by
        rw [ne_eq, kind_eq_call_iff]
        exact htype
      rw [Node.inserts, kind_row (by rw [hplace, hbare]; simp), beq_false_of_ne hkind]
      rfl

end Node

namespace Engine

open ParseTree

variable {file : WideText} {t : ParseTree}

theorem exposes_of_mem_convertedPlaces (hsides : t.ExposesSides) {locals : List String} {p : Place}
    (hp : p ∈ t.convertedPlaces locals) {field : String}
    (hfield : field ∈ ["left", "right", "receiver"]) : p.row.Exposes field := by
  apply hsides _ _ _ hfield
  exact row_mem_rows hp

theorem filterMap_newName? (hsides : t.ExposesSides) (locals : List String) :
    (Node.convert file locals none t).nodes.filterMap Node.newName? =
      (t.convertedPlaces locals).filterMap (·.row.newVariable?) := by
  rw [Node.nodes_eq_convertedPlaces, List.filterMap_map]
  apply List.filterMap_congr
  intro p hp
  apply Node.newName?_convert
  . exact exposes_of_mem_convertedPlaces hsides hp (by simp)
  . exact exposes_of_mem_convertedPlaces hsides hp (by simp)

theorem filter_inserts (hsides : t.ExposesSides) (locals tracked : List String) :
    (Node.convert file locals none t).nodes.filter (·.inserts tracked) =
      ((t.convertedPlaces locals).filter (·.inserts locals tracked)).map
        (·.toNode file locals) := by
  rw [Node.nodes_eq_convertedPlaces, List.filter_map]
  congr 1
  apply List.filter_congr
  intro p hp
  apply Node.inserts_toNode
  exact exposes_of_mem_convertedPlaces hsides hp (by simp)

theorem fst_ofParseTree (hroot : ¬ t.isTrivia) :
    (Node.ofParseTree file t).1 = some (Node.convert file t.localNames none t) := by
  rw [Node.ofParseTree, Node.collect_eq, if_neg hroot]

theorem sidesFit_nodes (file : WideText) (t : ParseTree) (locals : List String) :
    ∀ n ∈ (Node.convert file locals none t).nodes, n.SidesFit := by
  rw [Node.nodes_eq_convertedPlaces]
  intro n hn
  obtain ⟨p, _, rfl⟩ := List.mem_map.1 hn
  exact Node.sidesFit_convert

/--
The rule on seed data runs over a converted tree whatever the locals are: it reports the converted
places whose nodes insert a record, judged by the names that the nodes of all places bind.
-/
theorem run_convert (options : Options) (sink : Sink) (locals : List String)
    (hfile : "migration" ∈ Path.classify file) :
    let engine : Engine := { rules := [.isolateSeedData options], sink }
    let result := engine.run (some (Node.convert file locals none t)) file
    let places := t.convertedPlaces locals
    let tracked := places.filterMap fun p => (p.toNode file locals).newName?
    result.outcome =
        .ok ((places.filter fun p => (p.toNode file locals).inserts tracked).map fun p =>
          ⟨"IsolateSeedDataCheck", "isolate seed data", ⟨file, p.row.line⟩⟩)
      ∧ ∃ run, result.runs = [run]
        ∧ run.newVariables = tracked.foldl (fun names name => names.insert name) [] := by
  intro engine result places tracked
  obtain ⟨houtcome, hruns⟩ := run_migration options sink hfile (sidesFit_nodes file t locals)
  rw [errors_finished, Node.nodes_eq_convertedPlaces, List.filterMap_map, List.filter_map,
    List.map_map] at houtcome
  refine ⟨houtcome.trans ?_, _, hruns, ?_⟩
  . simp only [Function.comp_def, Place.toNode, Node.location_convert]
    rfl
  . rw [finished, remembered, Node.nodes_eq_convertedPlaces, List.filterMap_map]
    rfl

/--
A migration is converted and run by the rule on seed data without an error, and every converted row
that inserts a record gives one diagnostic, in pre-order.
-/
theorem run_ofParseTree (options : Options) (sink : Sink) (t : ParseTree) (file : WideText)
    (hroot : ¬ t.isTrivia) (hsides : t.ExposesSides) (hfile : "migration" ∈ Path.classify file) :
    let engine : Engine := { rules := [.isolateSeedData options], sink }
    let places := t.convertedPlaces t.localNames
    let tracked := places.filterMap (·.row.newVariable?)
    (engine.run (Node.ofParseTree file t).1 file).outcome =
      .ok ((places.filter (·.inserts t.localNames tracked)).map fun p =>
        ⟨"IsolateSeedDataCheck", "isolate seed data", ⟨file, p.row.line⟩⟩) := by
  intro engine places tracked
  have hnodes := sidesFit_nodes file t t.localNames
  rw [fst_ofParseTree hroot, (run_migration options sink hfile hnodes).1, errors_finished,
    filterMap_newName? hsides, filter_inserts hsides, List.map_map]
  simp only [Function.comp_def, Place.toNode, Node.location_convert]
  rfl

def roleMigration : ParseTree :=
  namedRow "program" "role = Role.new; create; role.save" none 0
    [namedRow "assignment" "role = Role.new" none 0
      [namedRow "identifier" "role" (some "left") 0 [],
       namedRow "call" "Role.new" (some "right") 0
        [namedRow "constant" "Role" (some "receiver") 0 [],
         namedRow "identifier" "new" (some "method") 0 []]],
     namedRow "identifier" "create" none 1 [],
     namedRow "call" "role.save" none 2
      [namedRow "identifier" "role" (some "receiver") 2 [],
       namedRow "identifier" "save" (some "method") 2 []]]

theorem run_roleMigration :
    let engine : Engine := { rules := [.isolateSeedData []] }
    let file := "db/migrate/1_roles.rb"
    (engine.run (Node.ofParseTree file roleMigration).1 file).outcome = .ok
      [⟨"IsolateSeedDataCheck", "isolate seed data", ⟨file, 2⟩⟩,
       ⟨"IsolateSeedDataCheck", "isolate seed data", ⟨file, 3⟩⟩] := by
  intro engine file
  have hlocals : roleMigration.localNames = ["role"] := by decide +kernel
  have hsides : roleMigration.ExposesSides := by
    unfold ExposesSides Exposes
    decide
  rw [run_ofParseTree _ _ _ _ (by decide) hsides (by decide), hlocals]
  rfl

end Engine

end MigrationLint
