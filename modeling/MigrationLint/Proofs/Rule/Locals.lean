import MigrationLint.Proofs.Node.Locals
import MigrationLint.Proofs.Rule.Migration

/-!
This module contains what the rule on seed data makes of more locals. The rule asks for messages,
receivers and sides of assignments, and none of these is a statement, so that more locals leave the
names that it tracks as they are. All that they take away are the reports on settled statements.
-/

namespace MigrationLint

namespace Node

variable {n m : Node}

theorem Alike.isNewCall_eq (h : n.Alike m) : n.isNewCall = m.isNewCall := by
  rw [isNewCall, isNewCall, h.kind_eq, textOf?_congr "message" h.roles_eq]

theorem any_isNewCall_congr {right other : Option Node} (h : Option.Rel Alike right other) :
    right.any isNewCall = other.any isNewCall := by
  cases h with
  | none => rfl
  | some h => exact h.isNewCall_eq

theorem map_text_filter_congr {left other : Option Node} (p : NodeKind → Bool)
    (h : Option.Rel Alike left other) :
    (left.filter (p ·.kind)).map text = (other.filter (p ·.kind)).map text := by
  apply map_filter_eq_of_rel h
  . intro n m h
    rw [h.kind_eq]
  . intro n m h
    exact h.text_eq

theorem newName?_congr (h : n.Alike m) (hchildren : List.Forall₂ Alike n.children m.children) :
    n.newName? = m.newName? := by
  have hfilled := rel_filled? Alike.refl h.roles_eq hchildren
  have hright := any_isNewCall_congr (rel_nodeOf? (hfilled "right_value"))
  have hleft := map_text_filter_congr (fun kind => kind == .localVar || kind == .instanceVar)
    (rel_nodeOf? (hfilled "left_value"))
  have hshown := shownOf?_congr (fun _ _ h => h.text_eq) (hfilled "left_value")
  have hoperator := textOf?_congr "operator" h.roles_eq
  simp only [newName?, h.kind_eq, hright, hleft, hshown, hoperator]

theorem inserts_congr_of_alike (h : n.Alike m)
    (hchildren : List.Forall₂ Alike n.children m.children) (tracked : List String) :
    n.inserts tracked = m.inserts tracked := by
  have hfilled := rel_filled? Alike.refl h.roles_eq hchildren
  have hsubject := shownOf?_congr (fun _ _ h => h.text_eq) (hfilled "subject")
  have hmessage := textOf?_congr "message" h.roles_eq
  simp only [inserts, h.kind_eq, hmessage, hsubject]

end Node

namespace ParseTree

theorem kind_of_statementContainers {t : ParseTree} (h : t.type ∈ statementContainers) :
    t.kind ≠ .call ∧ t.kind ≠ .localAssign ∧ t.kind ≠ .instanceAssign
      ∧ t.kind ≠ .operatorAssign := by
  have hall : ∀ type ∈ statementContainers,
      type ≠ "call" ∧ type ≠ "assignment" ∧ type ≠ "operator_assignment" := by
    decide
  obtain ⟨hcall, hassign, hoperator⟩ := hall _ h
  refine ⟨?_, ?_, ?_, ?_⟩
  . rwa [ne_eq, kind_eq_call_iff]
  . rw [ne_eq, kind_eq_localAssign_iff]
    exact fun h => hassign h.1
  . rw [ne_eq, kind_eq_instanceAssign_iff]
    exact fun h => hassign h.1
  . rwa [ne_eq, kind_eq_operatorAssign_iff]

/--
Check whether a place is a settled statement that would create a record.
-/
def Place.isSettledCreate (few more : List String) (p : Place) : Bool :=
  p.isSettled few more && p.row.text ∈ ["create", "create!"]

end ParseTree

namespace Node

open ParseTree

variable {file : WideText} {locals few more : List String} {parent : Option String} {t : ParseTree}
variable {p : Place}

theorem plain_of_statementContainers (h : t.type ∈ statementContainers) :
    (convert file locals parent t).newName? = none
      ∧ ∀ tracked, (convert file locals parent t).inserts tracked = false := by
  have hidentifier : t.type ≠ "identifier" := by
    intro hidentifier
    rw [hidentifier] at h
    exact absurd h (by decide)
  have hkind : (convert file locals parent t).kind = t.kind :=
    kind_row (not_isBareCall_of_type hidentifier)
  obtain ⟨hcall, hlocal, hinstance, hoperator⟩ := kind_of_statementContainers h
  constructor
  . apply newName?_eq_none
    . rw [hkind, not_or]
      exact ⟨hlocal, hinstance⟩
    . rwa [hkind]
  . intro tracked
    rw [inserts, hkind, beq_false_of_ne hcall, Bool.false_and]

theorem alike_children (hmore : few ⊆ more) (h : ¬ p.isSettled few more)
    (hcontainer : p.row.type ∉ statementContainers) :
    List.Forall₂ Alike (p.toNode file few).children (p.toNode file more).children := by
  rw [Place.isSettled_iff, not_and, not_not] at h
  unfold Place.toNode
  by_cases hbare : p.isBareCall few
  . have hboth := h hbare
    rw [← isBareCall_place] at hbare hboth
    rw [convert_bareCall hbare, convert_bareCall hboth]
    exact .nil
  . have hnone : ¬ p.isBareCall more := fun h => hbare (Place.isBareCall_of_subset hmore h)
    rw [← isBareCall_place] at hbare hnone
    rw [children_convert_row hbare, children_convert_row hnone, List.forall₂_map_left_iff,
      List.forall₂_map_right_iff, List.forall₂_same]
    -- What stands below a row that holds no statements is no statement, with any locals.
    intro (c, i) _
    exact alike_convert (not_isBareCall_of_parent hcontainer) (not_isBareCall_of_parent hcontainer)

theorem newName?_toNode_more (hmore : few ⊆ more)
    (hleaf : p.row.isIdentifier → p.row.namedChildren = []) :
    (p.toNode file more).newName? = (p.toNode file few).newName? := by
  have hplace := settledAt_of_subset file hmore hleaf
  unfold SettledAt at hplace
  split at hplace
  . rw [hplace.1, hplace.2]
    rfl
  . next hsettled =>
    by_cases hcontainer : p.row.type ∈ statementContainers
    . exact (plain_of_statementContainers hcontainer).1.trans
        (plain_of_statementContainers hcontainer).1.symm
    . exact (newName?_congr hplace (alike_children hmore hsettled hcontainer)).symm

theorem inserts_of_isSettledCreate (h : p.isSettledCreate few more) (tracked : List String) :
    (p.toNode file few).inserts tracked := by
  simp only [Place.isSettledCreate, Bool.and_eq_true] at h
  have hbare := (Place.isSettled_iff.1 h.1).1
  rw [← isBareCall_place] at hbare
  rw [Place.toNode, inserts_bareCall hbare]
  exact h.2

theorem inserts_toNode_more (hmore : few ⊆ more)
    (hleaf : p.row.isIdentifier → p.row.namedChildren = []) (tracked : List String) :
    (p.toNode file more).inserts tracked =
      ((p.toNode file few).inserts tracked && !p.isSettledCreate few more) := by
  have hplace := settledAt_of_subset file hmore hleaf
  unfold SettledAt at hplace
  split at hplace
  . next hsettled =>
    have hbare := (Place.isSettled_iff.1 hsettled).1
    rw [← isBareCall_place] at hbare
    have hfew : (p.toNode file few).inserts tracked = (p.row.text ∈ ["create", "create!"] : Bool) :=
      inserts_bareCall hbare tracked
    rw [hfew, hplace.2, Place.isSettledCreate, hsettled, Bool.true_and, Bool.and_not_self]
    rfl
  . next hsettled =>
    rw [Place.isSettledCreate, Bool.eq_false_iff.2 hsettled, Bool.false_and, Bool.not_false,
      Bool.and_true]
    by_cases hcontainer : p.row.type ∈ statementContainers
    . exact ((plain_of_statementContainers hcontainer).2 tracked).trans
        ((plain_of_statementContainers hcontainer).2 tracked).symm
    . exact (inserts_congr_of_alike hplace (alike_children hmore hsettled hcontainer) tracked).symm

end Node

namespace Engine

open ParseTree

variable {few more : List String} {t : ParseTree}

/--
More locals settle statements and change nothing else. The trees have one shape, with the same texts
and lines, and with the same kinds and roles at every place that is not settled. In a migration the
same names are tracked, and only the reports on settled statements go away.
-/
theorem run_moreLocals (options : Options) (sink : Sink) (file : WideText) (trace : Node.Trace)
    (hmore : few ⊆ more) (hleaf : t.LeafIdentifiers) :
    let engine : Engine := { rules := [.isolateSeedData options], sink }
    let places := t.convertedPlaces few
    let tracked := places.filterMap fun p => (p.toNode file few).newName?
    let reported := places.filter fun p => (p.toNode file few).inserts tracked
    let diagnostic (p : Place) : Diagnostic :=
      ⟨"IsolateSeedDataCheck", "isolate seed data", ⟨file, p.row.line⟩⟩
    if t.isTrivia then
      (Node.collect file few t trace).1 = none ∧ (Node.collect file more t trace).1 = none
    else
      ∃ n m, (Node.collect file few t trace).1 = some n
        ∧ (Node.collect file more t trace).1 = some m ∧ n.SameShape m
        ∧ n.preorder = places.map (·.toNode file few)
        ∧ m.preorder = places.map (·.toNode file more)
        ∧ (∀ p ∈ places, Node.SettledAt file few more p)
        ∧ ("migration" ∈ Path.classify file →
          (∃ run other, (engine.run (some n) file).runs = [run]
            ∧ (engine.run (some m) file).runs = [other] ∧ other.newVariables = run.newVariables)
          ∧ (engine.run (some n) file).outcome = .ok (reported.map diagnostic)
          ∧ (engine.run (some m) file).outcome =
              .ok ((reported.filter (!·.isSettledCreate few more)).map diagnostic)
          ∧ ∀ p ∈ places, p.isSettledCreate few more → p ∈ reported) := by
  intro engine places tracked reported diagnostic
  have hplaces : t.convertedPlaces more = places := (convertedPlaces_congr hmore hleaf).symm
  have hidentifiers (p : Place) (hp : p ∈ places) :
      p.row.isIdentifier → p.row.namedChildren = [] :=
    hleaf p.row (row_mem_rows hp)
  split
  . next h => simp only [Node.collect_eq, if_pos h, and_self]
  . next h =>
    refine ⟨Node.convert file few none t, Node.convert file more none t, ?_, ?_, ?_, ?_, ?_, ?_, ?_⟩
    . rw [Node.collect_eq, if_neg h]
    . rw [Node.collect_eq, if_neg h]
    . exact Node.sameShape_convert few more none t hleaf
    . rw [Node.preorder_eq_nodes, Node.nodes_eq_convertedPlaces]
    . rw [Node.preorder_eq_nodes, Node.nodes_eq_convertedPlaces, hplaces]
    . intro p hp
      exact Node.settledAt_of_subset file hmore (hidentifiers p hp)
    . intro hfile
      obtain ⟨hfew, run, hrun, hnames⟩ := run_convert (t := t) options sink few hfile
      obtain ⟨hboth, other, hother, hnames'⟩ := run_convert (t := t) options sink more hfile
      rw [hplaces] at hboth hnames'
      have htracked : (places.filterMap fun p => (p.toNode file more).newName?) = tracked := by
        apply List.filterMap_congr
        intro p hp
        exact Node.newName?_toNode_more hmore (hidentifiers p hp)
      have hreported : (places.filter fun p => (p.toNode file more).inserts tracked) =
          reported.filter (!·.isSettledCreate few more) := by
        rw [List.filter_filter]
        apply List.filter_congr
        intro p hp
        rw [Node.inserts_toNode_more hmore (hidentifiers p hp), Bool.and_comm]
      rw [htracked] at hnames'
      rw [htracked, hreported] at hboth
      refine ⟨⟨run, other, hrun, hother, hnames'.trans hnames.symm⟩, hfew, hboth, ?_⟩
      intro p hp hcreate
      exact List.mem_filter.2 ⟨hp, Node.inserts_of_isSettledCreate hcreate tracked⟩

theorem run_createIsLocal :
    let engine : Engine := { rules := [.isolateSeedData []] }
    let file := "db/migrate/1_roles.rb"
    let report (line : Int) : Diagnostic :=
      ⟨"IsolateSeedDataCheck", "isolate seed data", ⟨file, line⟩⟩
    ∃ n m, (Node.collect file ["role"] roleMigration {}).1 = some n
      ∧ (Node.collect file ["role", "create"] roleMigration {}).1 = some m ∧ n.SameShape m
      ∧ (engine.run (some n) file).outcome = .ok [report 2, report 3]
      ∧ (engine.run (some m) file).outcome = .ok [report 3] := by
  intro engine file report
  have hleaf : roleMigration.LeafIdentifiers := by
    unfold LeafIdentifiers
    decide
  have hsubset : ["role"] ⊆ ["role", "create"] := by
    decide
  have hmore := run_moreLocals [] #[] file {} hsubset hleaf
  rw [if_neg (by decide)] at hmore
  obtain ⟨n, m, hn, hm, hshape, _, _, _, hfindings⟩ := hmore
  obtain ⟨_, hfew, hboth, _⟩ := hfindings (by decide)
  refine ⟨n, m, hn, hm, hshape, hfew.trans ?_, hboth.trans ?_⟩
  . decide +kernel
  . decide +kernel

end Engine

end MigrationLint
