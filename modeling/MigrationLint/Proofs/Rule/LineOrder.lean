import MigrationLint.Proofs.Node.Collect
import MigrationLint.Proofs.Rule.Alone
import MigrationLint.Proofs.Rule.History

/-!
This module contains the order in which findings come out. A pass returns its findings in blocks,
one for each node and all of them about the place of the node, and the nodes of a converted tree
stand in the order of its rows. So if the rows start on later and later lines, findings do so, too.
-/

namespace MigrationLint

theorem Node.pairwise_line_nodes (file : WideText) (locals : List String) {t : ParseTree}
    (h : t.rows.Pairwise fun r s => r.label.startRow ≤ s.label.startRow) :
    (convert file locals none t).nodes.Pairwise fun n m => n.line ≤ m.line := by
  rw [← ParseTree.placesFrom_map_row [], List.pairwise_map] at h
  rw [nodes_eq_convertedPlaces, List.pairwise_map]
  apply (List.Pairwise.filter _ h).imp
  intro p q hpq
  simp only [line, ParseTree.Place.toNode, location_convert, ParseTree.line]
  omega

namespace Engine

theorem locations_visitNode {phase : Phase} {n : Node} {runs next : List RuleRun}
    {emitted : List Diagnostic} (h : visitNode phase n runs = .ok (next, emitted)) :
    ∀ d ∈ emitted, d.location = n.location := by
  induction runs generalizing next emitted with
  | nil =>
    cases h
    simp
  | cons run runs ih =>
    obtain ⟨first, rest, later, hfirst, hrest, rfl, rfl⟩ := visitNode_cons_eq_ok h
    obtain ⟨_, added, herrors, hadded⟩ := RuleRun.reports_of_handle hfirst
    intro d hd
    rcases List.mem_append.1 hd with hd | hd
    . rw [RuleRun.toList_extract_of_append herrors] at hd
      exact (hadded d hd).2
    . exact ih hrest d hd

/--
A pass over nodes adds one block of diagnostics for each node, about the place of the node.
-/
theorem exists_blocks_visitNodes {phase : Phase} {ns : List Node} {progress last : Progress}
    (h : visitNodes phase progress ns = .ok last) :
    ∃ blocks, last.emitted.toList = progress.emitted.toList ++ blocks.flatten
      ∧ List.Forall₂ (fun n block => ∀ d ∈ block, d.location = n.location) ns blocks := by
  induction ns generalizing progress with
  | nil =>
    cases h
    exact ⟨[], by simp, .nil⟩
  | cons n ns ih =>
    obtain ⟨runs, emitted, hnode, hnodes⟩ := visitNodes_cons_eq_ok h
    obtain ⟨blocks, hlast, hblocks⟩ := ih hnodes
    refine ⟨emitted :: blocks, ?_, .cons (locations_visitNode hnode) hblocks⟩
    simp [hlast]

theorem pairwise_flatten_blocks {ns : List Node} {blocks : List (List Diagnostic)}
    (hblocks : List.Forall₂ (fun n block => ∀ d ∈ block, d.location = n.location) ns blocks)
    (hns : ns.Pairwise fun n m => n.line ≤ m.line) :
    blocks.flatten.Pairwise fun d e => d.location.line ≤ e.location.line := by
  induction hblocks with
  | nil => exact .nil
  | cons hblock hblocks ih =>
    obtain ⟨hfirst, hrest⟩ := List.pairwise_cons.1 hns
    rw [List.flatten_cons, List.pairwise_append]
    refine ⟨?_, ih hrest, ?_⟩
    . apply List.pairwise_of_forall_mem_list
      intro d hd e he
      rw [hblock d hd, hblock e he]
    . intro d hd e he
      obtain ⟨block, hmem, he⟩ := List.mem_flatten.1 he
      obtain ⟨m, hm, hlocation⟩ := exists_of_forall₂ hblocks.flip hmem
      rw [hblock d hd, hlocation e he]
      exact hfirst m hm

/--
The findings of a run over a converted tree come out in the order of their lines, whatever the rules
are, provided that the rows of the tree do and that no rule begins a phase itself.
-/
theorem run_inLineOrder (engine : Engine) (t : ParseTree) (source file : WideText)
    {root : Node} {diagnostics : List Diagnostic}
    (hrows : t.rows.Pairwise fun r s => r.label.startRow ≤ s.label.startRow)
    (hrules : ∀ rule ∈ engine.rules, rule.NeverBegins)
    (hroot : (Node.ofParseTree source t).1 = some root)
    (hrun : (engine.run (some root) file).outcome = .ok diagnostics) :
    diagnostics.Pairwise fun d e => d.location.line ≤ e.location.line := by
  have hnodes : root.nodes.Pairwise fun n m => n.line ≤ m.line := by
    rw [Node.ofParseTree, Node.collect_eq] at hroot
    split at hroot
    . cases hroot
    . cases hroot
      exact Node.pairwise_line_nodes source t.localNames hrows
  -- The first pass emits nothing, so all findings are those of one pass over the nodes.
  obtain ⟨_, prepared, last, _, _, hreview, rfl⟩ := noEmit_of_run_eq_ok hrules hrun
  obtain ⟨blocks, hemitted, hblocks⟩ := exists_blocks_visitNodes hreview
  rw [hemitted]
  simpa using pairwise_flatten_blocks hblocks hnodes

def watchNames : Rule :=
  .scripted ⟨"Watch", [.call, .localVar], [],
    [("review_call", [.visit, .emit "call", .emit "again"]), ("review_lvar", [.emit "name"])]⟩

def threeLines : ParseTree :=
  ParseTree.namedRow "program" "role.create; create; role = 1" none 0
    [ParseTree.namedRow "call" "role.create" none 1
      [ParseTree.namedRow "identifier" "role" (some "receiver") 1 [],
       ParseTree.namedRow "identifier" "create" (some "method") 2 []],
     ParseTree.namedRow "identifier" "create" none 2 [],
     ParseTree.namedRow "assignment" "role = 1" none 4
      [ParseTree.namedRow "identifier" "role" (some "left") 4 [],
       ParseTree.namedRow "integer" "1" (some "right") 4 []]]

theorem run_threeLines :
    let file := "db/migrate/1_roles.rb"
    let engine : Engine := { rules := [watchNames, .isolateSeedData []] }
    let seen (message : String) (line : Int) : Diagnostic := ⟨"Watch", message, ⟨file, line⟩⟩
    let seed (line : Int) : Diagnostic :=
      ⟨"IsolateSeedDataCheck", "isolate seed data", ⟨file, line⟩⟩
    let findings := [seen "call" 2, seen "again" 2, seed 2, seen "name" 2,
      seen "call" 3, seen "again" 3, seed 3, seen "name" 5]
    ∃ root, (Node.ofParseTree file threeLines).1 = some root
      ∧ (engine.run (some root) file).outcome = .ok findings
      ∧ findings.Pairwise fun d e => d.location.line ≤ e.location.line := by
  intro file engine seen seed findings
  have hrows : threeLines.rows.Pairwise fun r s => r.label.startRow ≤ s.label.startRow := by
    decide
  have hrules : ∀ rule ∈ engine.rules, rule.NeverBegins := by
    simp only [engine, List.forall_mem_cons, watchNames, Rule.NeverBegins]
    simp
  have hroot : (Node.ofParseTree file threeLines).1 =
      some (Node.convert file threeLines.localNames none threeLines) := by
    rw [Node.ofParseTree, Node.collect_eq, if_neg (by decide)]
  have hrun : (engine.run (some (Node.convert file threeLines.localNames none threeLines))
      file).outcome = .ok findings := by
    decide +kernel
  exact ⟨_, hroot, hrun, run_inLineOrder engine threeLines file file hrows hrules hroot hrun⟩

end Engine

end MigrationLint
