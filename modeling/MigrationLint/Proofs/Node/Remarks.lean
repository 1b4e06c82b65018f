import MigrationLint.Node.Outline
import MigrationLint.Proofs.Node.Collect
import MigrationLint.Proofs.ParseTree.Remarks
import MigrationLint.Rule.Engine

/-!
This module contains the proof that remarks change nothing. Trees that differ in remarks only have
the same locals, and they are converted to the same nodes in the same slots, with the same visits on
the way, so that neither the rules nor an outline can tell them apart.
-/

namespace MigrationLint

namespace Node

open ParseTree

theorem partRoles_congr {parts others : List (Option String × ParseTree)}
    (h : List.Forall₂ SamePart parts others) : partRoles parts = partRoles others := by
  have hroles : parts.map (·.1) = others.map (·.1) :=
    map_eq_of_forall₂ h fun _ _ _ h => h.role_eq
  have hpartRoles (parts : List (Option String × ParseTree)) :
      partRoles parts = (parts.map (·.1)).zipIdx.filterMap fun (role, position) =>
        role.map fun name => (name, .child position) := by
    rw [partRoles, List.zipIdx_map, List.filterMap_map]
    rfl
  rw [hpartRoles, hpartRoles, hroles]

theorem convert_sameCode {s t : ParseTree} (file : WideText) (locals : List String)
    (parent : Option String) (h : s.SameCode t) :
    convert file locals parent s = convert file locals parent t := by
  have hplan := h.plan locals parent
  rw [convert_eq, convert_eq, hplan.kind_eq, hplan.textRoles_eq, partRoles_congr hplan.parts,
    h.line_eq, h.text_eq, h.type_eq]
  congr 1
  apply map_eq_of_forall₂ hplan.parts
  intro part hpart other hother
  exact convert_sameCode file locals (some t.type) hother.sameCode
termination_by s.size
decreasing_by exact size_lt_of_mem_parts hpart

theorem visits_sameCode {s t : ParseTree} (locals : List String) (parent : Option String)
    (h : s.SameCode t) :
    ((reached locals parent s).map fun (parent, row) => visit locals parent row) =
      (reached locals parent t).map fun (parent, row) => visit locals parent row := by
  have hplan := h.plan locals parent
  rw [reached_eq, reached_eq, List.map_cons, List.map_cons, List.map_flatMap, List.map_flatMap,
    List.flatMap_def, List.flatMap_def, h.type_eq]
  congr 1
  . simp only [visit, h.type_eq, hplan.kind_eq]
  . congr 1
    apply map_eq_of_forall₂ hplan.parts
    intro part hpart other hother
    exact visits_sameCode locals (some t.type) hother.sameCode
termination_by s.size
decreasing_by exact size_lt_of_mem_parts hpart

variable {s t : ParseTree}

theorem record_sameCode (file : WideText) (locals : List String) (trace : Trace)
    (h : s.SameCode t) :
    trace.record file locals (reached locals none s) =
      trace.record file locals (reached locals none t) := by
  have hnodes (t : ParseTree) :
      ((reached locals none t).map fun (parent, row) => some (convert file locals parent row)) =
        (convert file locals none t).nodes.map some := by
    rw [nodes_convert, List.map_map]
    rfl
  rw [Trace.record, Trace.record, hnodes, hnodes, convert_sameCode file locals none h,
    visits_sameCode locals none h]

theorem collect_sameCode (file : WideText) (locals : List String) (trace : Trace)
    (h : s.SameCode t) : collect file locals s trace = collect file locals t trace := by
  rw [collect_eq, collect_eq, h.isTrivia_eq, convert_sameCode file locals none h,
    record_sameCode file locals trace h]

/--
Remarks change nothing: not the locals, not the nodes with their slots and visits, whatever locals
they are collected for, and so neither what rules report nor what an outline shows.
-/
theorem ofParseTree_sameCode (file : WideText) (h : s.SameCode t) :
    s.localNames = t.localNames
      ∧ (∀ locals trace, collect file locals s trace = collect file locals t trace)
      ∧ ofParseTree file s = ofParseTree file t
      ∧ (∀ engine : Engine,
          engine.run (ofParseTree file s).1 file = engine.run (ofParseTree file t).1 file)
      ∧ ∀ first last, (ofParseTree file s).1.map (·.outline first last) =
          (ofParseTree file t).1.map (·.outline first last) := by
  have hlocals := localNames_sameCode h
  have hnodes : ofParseTree file s = ofParseTree file t := by
    rw [ofParseTree, ofParseTree, hlocals]
    exact collect_sameCode file t.localNames {} h
  refine ⟨hlocals, ?_, hnodes, ?_, ?_⟩
  . intro locals trace
    exact collect_sameCode file locals trace h
  . intro engine
    rw [hnodes]
  . intro first last
    rw [hnodes]

def countedRoles (between : List ParseTree) : ParseTree :=
  namedRow "operator_assignment" "total += # so far\n  1" none 1
    (namedRow "identifier" "total" (some "left") 1 [] ::
     .node ⟨"+=", false, false, false, some "+=", 1, some "operator"⟩ [] ::
     (between ++ [namedRow "integer" "1" (some "right") 2 []]))

def countingProgram (above between : List ParseTree) : ParseTree :=
  namedRow "program" "# roles\ntotal += # so far\n  1" none 0 (above ++ [countedRoles between])

theorem ofParseTree_countingProgram :
    let file := "db/seeds.rb"
    let plain := countingProgram [] []
    let remarked := countingProgram [namedRow "comment" "# roles" none 0 []]
      [namedRow "comment" "# so far" none 1 []]
    plain.SameCode remarked ∧ ofParseTree file plain = ofParseTree file remarked
      ∧ (ofParseTree file remarked).1.map (·.outline none none) = some
        ["program line=1",
         "  op_asgn line=2 operator=+= left_value=<lvar>total right_value=<lit>1",
         "    lvar line=2", "    lit line=3"] := by
  intro file plain remarked
  have hremark (text : String) (startRow : Nat) :
      (namedRow "comment" text none startRow []).IsRemark :=
    ⟨rfl, rfl, rfl, rfl⟩
  have hroles : (countedRoles []).SameCode
      (countedRoles [namedRow "comment" "# so far" none 1 []]) := by
    apply SameCode.node (.refl _)
    apply Aligned.keep (.refl _)
    apply Aligned.keep (.refl _)
    apply Aligned.add (hremark _ _)
    exact .keep (.refl _) .nil
  have hprogram : plain.SameCode remarked := by
    apply SameCode.node (.refl _)
    apply Aligned.add (hremark _ _)
    exact .keep hroles .nil
  obtain ⟨_, _, hnodes, _, houtline⟩ := ofParseTree_sameCode file hprogram
  refine ⟨hprogram, hnodes, (houtline none none).symm.trans ?_⟩
  decide +kernel

end Node

end MigrationLint
