import MigrationLint.Proofs.ParseTree.Locals
import MigrationLint.Proofs.Rule.Migration

/-!
This module contains what becomes of the names of parameters. A parameter is a local. One that is
destructured further, in a list inside the list of parameters, is a local only if another row binds
its name, because such an inner list is no container; if none does, the statements of that name are
converted to calls, and reported as such. Lists inside the targets of an assignment are containers.
-/

namespace MigrationLint

namespace ParseTree

def parameterLists : List String := ["method_parameters", "block_parameters", "lambda_parameters"]

variable {t list row : ParseTree} {depth : ℕ}

theorem mem_bindingContainers_of_parameterLists {type : String} (h : type ∈ parameterLists) :
    type ∈ bindingContainers := by
  revert h type
  decide

theorem text_mem_localNames_of_parameter (hlist : t.Reaches list)
    (htype : list.type ∈ parameterLists) (hrow : row ∈ list.namedChildren)
    (hidentifier : row.isIdentifier) : row.text ∈ t.localNames :=
  text_mem_localNames hlist (mem_bindingContainers_of_parameterLists htype) hrow hidentifier

theorem ownNames_destructuredParameter (h : row.type = "destructured_parameter") :
    row.ownNames = [] := by
  simp [ownNames, h, bindingContainers, namedParameters]

end ParseTree

namespace Engine

open ParseTree

variable {t list row : ParseTree} {file : WideText} {depth : ℕ} {p : Place}

/--
Check whether the rule on seed data reports a converted place of a tree.
-/
def reports (file : WideText) (t : ParseTree) (p : Place) : Bool :=
  let nodes := (t.convertedPlaces t.localNames).map (·.toNode file t.localNames)
  (p.toNode file t.localNames).inserts (nodes.filterMap Node.newName?)

theorem run_reports (options : Options) (sink : Sink) (hroot : ¬ t.isTrivia)
    (hfile : "migration" ∈ Path.classify file) :
    let engine : Engine := { rules := [.isolateSeedData options], sink }
    (engine.run (Node.ofParseTree file t).1 file).outcome =
      .ok (((t.convertedPlaces t.localNames).filter (reports file t)).map fun p =>
        ⟨"IsolateSeedDataCheck", "isolate seed data", ⟨file, p.row.line⟩⟩) := by
  intro engine
  have hreports : reports file t = fun p =>
      (p.toNode file t.localNames).inserts ((t.convertedPlaces t.localNames).filterMap fun p =>
        (p.toNode file t.localNames).newName?) := by
    funext p
    rw [reports, List.filterMap_map]
    rfl
  rw [fst_ofParseTree hroot, (run_convert options sink t.localNames hfile).1, hreports]

theorem toNode_statement (hidentifier : p.row.isIdentifier)
    (hparent : p.parentType.any (· ∈ statementContainers)) (hlocal : p.row.text ∉ t.localNames) :
    p.toNode file t.localNames =
      .mk .call ⟨file, p.row.line⟩ p.row.text [("message", .text p.row.text)] []
      ∧ (reports file t p ↔ p.row.text ∈ SeedData.createMessages) := by
  have hbare : p.row.isBareCall t.localNames p.parentType := by
    rw [Node.isBareCall_place, Place.isBareCall, hidentifier, hparent]
    simpa using hlocal
  refine ⟨Node.convert_bareCall hbare, ?_⟩
  rw [reports, Place.toNode, Node.inserts_bareCall hbare, decide_eq_true_iff]
  rfl

theorem toNode_local (hidentifier : p.row.isIdentifier) (hlocal : p.row.text ∈ t.localNames) :
    (p.toNode file t.localNames).kind = .localVar ∧ ¬ reports file t p := by
  have hbare : ¬ p.row.isBareCall t.localNames p.parentType := by
    rw [Node.isBareCall_place, Place.isBareCall]
    simp [hlocal]
  have hkind : (p.toNode file t.localNames).kind = .localVar := by
    rw [Place.toNode, Node.kind_row hbare, kind_eq_localVar_iff]
    simpa [isIdentifier] using hidentifier
  refine ⟨hkind, ?_⟩
  simp [reports, Node.inserts, hkind]

/--
The name of a parameter binds a local if the parameter stands directly in its list. Below that it is
a local exactly if a row that is no destructured parameter binds the same name. The statements of
that name are variables and not reported if it is a local; else they are calls, and those that
create a record are reported.
-/
theorem run_parameter (options : Options) (sink : Sink) (file : WideText) (hlist : t.Reaches list)
    (htype : list.type ∈ parameterLists) (hrow : Nests "destructured_parameter" list depth row)
    (hidentifier : row.isIdentifier) :
    let engine : Engine := { rules := [.isolateSeedData options], sink }
    let places := t.convertedPlaces t.localNames
    (depth = 0 → row.text ∈ t.localNames)
    ∧ (row.text ∈ t.localNames ↔ ∃ other, t.Reaches other ∧ other.type ≠ "destructured_parameter"
        ∧ row.text ∈ other.ownNames)
    ∧ (¬ t.isTrivia → "migration" ∈ Path.classify file →
        (engine.run (Node.ofParseTree file t).1 file).outcome =
          .ok ((places.filter (reports file t)).map fun p =>
            ⟨"IsolateSeedDataCheck", "isolate seed data", ⟨file, p.row.line⟩⟩))
    ∧ ∀ p ∈ places, p.row.isIdentifier → p.row.text = row.text →
        p.parentType.any (· ∈ statementContainers) →
        (row.text ∈ t.localNames →
          (p.toNode file t.localNames).kind = .localVar ∧ ¬ reports file t p)
        ∧ (row.text ∉ t.localNames →
          p.toNode file t.localNames =
            .mk .call ⟨file, p.row.line⟩ row.text [("message", .text row.text)] []
          ∧ (reports file t p ↔ row.text ∈ SeedData.createMessages)) := by
  intro engine places
  refine ⟨?_, ?_, run_reports options sink, ?_⟩
  . rintro rfl
    cases hrow with
    | direct hmem => exact text_mem_localNames_of_parameter hlist htype hmem hidentifier
  . rw [mem_localNames_iff]
    constructor
    . rintro ⟨other, hother, hname⟩
      refine ⟨other, hother, ?_, hname⟩
      intro hinner
      rw [ownNames_destructuredParameter hinner] at hname
      cases hname
    . rintro ⟨other, hother, _, hname⟩
      exact ⟨other, hother, hname⟩
  . intro p _ hp htext hparent
    rw [← htext]
    exact ⟨toNode_local hp, toNode_statement hp hparent⟩

def pairParameter : ParseTree :=
  namedRow "destructured_parameter" "(create, b)" none 0
    [namedRow "identifier" "create" none 0 [], namedRow "identifier" "b" none 0 []]

def pairParameters : ParseTree :=
  namedRow "block_parameters" "|a, (create, b)|" (some "parameters") 0
    [namedRow "identifier" "a" none 0 [], pairParameter]

def pairBlock : ParseTree :=
  namedRow "program" "xs.each { |a, (create, b)| create }" none 0
    [namedRow "call" "xs.each { |a, (create, b)| create }" none 0
      [namedRow "identifier" "xs" (some "receiver") 0 [],
       namedRow "identifier" "each" (some "method") 0 [],
       namedRow "block" "{ |a, (create, b)| create }" (some "block") 0
        [pairParameters,
         namedRow "block_body" "create" (some "body") 0
          [namedRow "identifier" "create" none 0 []]]]]

/--
The second parameter of the block is a pair, and its first part names what the block returns.
-/
theorem run_pairBlock :
    let engine : Engine := { rules := [.isolateSeedData []] }
    let file := "db/migrate/1_roles.rb"
    "create" ∉ pairBlock.localNames
      ∧ (engine.run (Node.ofParseTree file pairBlock).1 file).outcome =
          .ok [⟨"IsolateSeedDataCheck", "isolate seed data", ⟨file, 1⟩⟩] := by
  intro engine file
  have hlist : pairBlock.Reaches pairParameters := by
    have hcall := (Reaches.refl pairBlock).tail (.head _)
    have hblock := hcall.tail (.tail _ (.tail _ (.head _)))
    exact hblock.tail (.head _)
  have hrow : Nests "destructured_parameter" pairParameters 1
      (namedRow "identifier" "create" none 0 []) :=
    .deeper (.direct (.tail _ (.head _))) rfl (.head _)
  have hlocals : pairBlock.localNames = ["a"] := by decide +kernel
  obtain ⟨_, _, houtcome, _⟩ := run_parameter [] #[] file hlist (by decide) hrow (by decide)
  refine ⟨by rw [hlocals]; decide, (houtcome (by decide) (by decide)).trans ?_⟩
  decide +kernel

end Engine

end MigrationLint
