import Mathlib.Data.List.Nodup
import MigrationLint.Proofs.List
import MigrationLint.Proofs.Node.Target
import MigrationLint.Proofs.Rule.Engine

/-!
This module contains what the rule on seed data finds in a tree of nodes. The names that it tracks
are those of all nodes that assign a new record, wherever they stand, since the first pass has ended
when the second one begins; the diagnostics are those of the nodes that insert a record, in
pre-order.
-/

namespace MigrationLint

namespace Node

def isNewCall (n : Node) : Bool :=
  n.kind == .call && n.textOf? "message" == some "new"

/--
Get the name that a node binds to a new record. Without a left side that is the name `None`, and a
node that assigns by default needs a variable on its left side.
-/
def newName? (n : Node) : Option String :=
  if (n.nodeOf? "right_value").any isNewCall then
    match n.kind with
    | .localAssign | .instanceAssign => some ((n.shownOf? "left_value").getD "None")
    | .operatorAssign =>
      if n.textOf? "operator" = some "||=" then
        ((n.nodeOf? "left_value").filter fun left =>
          left.kind == .localVar || left.kind == .instanceVar).map text
      else none
    | _ => none
  else none

theorem newName?_assign {n : Node} (h : n.kind = .localAssign ∨ n.kind = .instanceAssign) :
    n.newName? =
      if (n.nodeOf? "right_value").any isNewCall then
        some ((n.shownOf? "left_value").getD "None")
      else none := by
  unfold newName?
  rcases h with h | h <;> rw [h]

theorem newName?_operatorAssign {n : Node} (h : n.kind = .operatorAssign) :
    n.newName? =
      if (n.nodeOf? "right_value").any isNewCall then
        if n.textOf? "operator" = some "||=" then
          ((n.nodeOf? "left_value").filter fun left =>
            left.kind == .localVar || left.kind == .instanceVar).map text
        else none
      else none := by
  unfold newName?
  rw [h]

theorem newName?_eq_none {n : Node} (hassign : ¬ (n.kind = .localAssign ∨ n.kind = .instanceAssign))
    (hoperator : n.kind ≠ .operatorAssign) : n.newName? = none := by
  unfold newName?
  split
  . split
    . next hkind => exact absurd (.inl hkind) hassign
    . next hkind => exact absurd (.inr hkind) hassign
    . next hkind => exact absurd hkind hoperator
    . rfl
  . rfl

def inserts (tracked : List String) (n : Node) : Bool :=
  n.kind == .call && (n.textOf? "message").any fun message =>
    message ∈ ["create", "create!"] ||
      message ∈ ["save", "save!"] && (n.shownOf? "subject").any (· ∈ tracked)

/--
The sides of an assignment are not filled by texts. What fills the other roles does not matter.
-/
structure SidesFit (n : Node) : Prop where
  right : n.kind = .localAssign ∨ n.kind = .instanceAssign ∨ n.kind = .operatorAssign →
    n.textOf? "right_value" = none
  left : n.kind = .operatorAssign → n.textOf? "left_value" = none

instance (n : Node) : Decidable n.SidesFit :=
  decidable_of_iff
    ((n.kind = .localAssign ∨ n.kind = .instanceAssign ∨ n.kind = .operatorAssign →
        n.textOf? "right_value" = none)
      ∧ (n.kind = .operatorAssign → n.textOf? "left_value" = none))
    ⟨fun ⟨right, left⟩ => ⟨right, left⟩, fun ⟨right, left⟩ => ⟨right, left⟩⟩

end Node

namespace SeedData

variable {n : Node} {name : String}

theorem nodeIn_eq (h : name ∈ n.kind.roles) (htext : n.textOf? name = none) :
    nodeIn n name = .ok (n.nodeOf? name) := by
  unfold Node.textOf? at htext
  unfold nodeIn Node.nodeOf?
  rw [Node.role_eq h]
  cases hfilled : n.filled? name with
  | none => rfl
  | some target =>
    rw [hfilled] at htext
    cases target with
    | text value => simp [Node.Target.text?] at htext
    | node target => rfl

theorem shownIn_eq (h : name ∈ n.kind.roles) : shownIn n name = .ok (n.shownOf? name) := by
  unfold shownIn Node.shownOf?
  rw [Node.role_eq h]

theorem textIn_eq (h : name ∈ n.kind.roles) : textIn n name = .ok (n.textOf? name) := by
  unfold textIn Node.textOf?
  rw [Node.role_eq h]
  cases hfilled : n.filled? name with
  | none => rfl
  | some target => cases target <;> rfl

theorem assignsNew_eq (h : "right_value" ∈ n.kind.roles) (htext : n.textOf? "right_value" = none) :
    assignsNew n = .ok ((n.nodeOf? "right_value").any Node.isNewCall) := by
  unfold assignsNew
  rw [nodeIn_eq h htext]
  cases n.nodeOf? "right_value" with
  | none => rfl
  | some right =>
    simp only [bind, Except.bind, Option.any_some, Node.isNewCall]
    by_cases hkind : right.kind = .call
    . have hmessage : "message" ∈ right.kind.roles := by
        rw [hkind]
        decide
      simp [hkind, textIn_eq hmessage, pure, Except.pure]
    . simp [hkind, pure, Except.pure]

theorem newVariable?_eq (hleft : "left_value" ∈ n.kind.roles)
    (hright : "right_value" ∈ n.kind.roles) (htext : n.textOf? "right_value" = none) :
    newVariable? n = .ok
      (if (n.nodeOf? "right_value").any Node.isNewCall then
        some ((n.shownOf? "left_value").getD "None")
      else none) := by
  unfold newVariable?
  rw [assignsNew_eq hright htext, shownIn_eq hleft]
  cases (n.nodeOf? "right_value").any Node.isNewCall <;> rfl

theorem newVariable?_assign (hkind : n.kind = .localAssign ∨ n.kind = .instanceAssign)
    (hsides : n.SidesFit) : newVariable? n = .ok n.newName? := by
  have hroles : n.kind.roles = ["left_value", "right_value"] := by
    rcases hkind with hkind | hkind <;> rw [hkind] <;> rfl
  have htext : n.textOf? "right_value" = none := by
    apply hsides.right
    rcases hkind with hkind | hkind
    . exact .inl hkind
    . exact .inr (.inl hkind)
  rw [newVariable?_eq (by simp [hroles]) (by simp [hroles]) htext, Node.newName?_assign hkind]

theorem newDefault?_eq (hkind : n.kind = .operatorAssign) (hsides : n.SidesFit) :
    newDefault? n = .ok n.newName? := by
  have hroles : n.kind.roles = ["left_value", "right_value", "operator"] := by
    rw [hkind]
    rfl
  have hright : n.textOf? "right_value" = none := hsides.right (.inr (.inr hkind))
  unfold newDefault?
  rw [textIn_eq (by simp [hroles]), nodeIn_eq (by simp [hroles]) (hsides.left hkind),
    newVariable?_eq (by simp [hroles]) (by simp [hroles]) hright,
    Node.newName?_operatorAssign hkind]
  simp only [bind, Except.bind, pure, Except.pure, bne_iff_ne, ne_eq, ite_not]
  by_cases hoperator : n.textOf? "operator" = some "||="
  . cases hleft : n.nodeOf? "left_value" with
    | none => simp [hoperator]
    | some left =>
      rw [Node.shownOf?_of_nodeOf? hleft]
      by_cases hvariable : left.kind = .localVar ∨ left.kind = .instanceVar
      . simp [hoperator, hvariable, Option.filter]
      . simp [hoperator, hvariable, Option.filter]
  . simp [hoperator]

theorem insertsRecord_eq (hkind : n.kind = .call) (tracked : List String) :
    insertsRecord tracked n = .ok (n.inserts tracked) := by
  have hroles : n.kind.roles = ["subject", "message", "arguments", "block"] := by
    rw [hkind]
    rfl
  unfold insertsRecord Node.inserts
  rw [textIn_eq (by simp [hroles]), shownIn_eq (by simp [hroles]), hkind]
  simp only [bind, Except.bind, pure, Except.pure]
  cases n.textOf? "message" with
  | none => rfl
  | some message =>
    unfold createMessages saveMessages
    simp only [Option.any_some, beq_self_eq_true, Bool.true_and]
    by_cases hcreate : message ∈ ["create", "create!"]
    . simp only [hcreate, decide_true, ↓reduceIte, Bool.true_or]
    . by_cases hsave : message ∈ ["save", "save!"]
      . simp only [hcreate, hsave, decide_true, decide_false, Bool.false_eq_true, ↓reduceIte,
          Bool.false_or, Bool.true_and]
      . simp only [hcreate, hsave, decide_false, Bool.false_eq_true, ↓reduceIte, Bool.false_or,
          Bool.false_and]

end SeedData

namespace RuleRun

variable {run : RuleRun} {n : Node} {options : Options}

theorem action?_prepare (options : Options) (kind : NodeKind) :
    (Rule.isolateSeedData options).action? .prepare kind =
      if kind = .localAssign ∨ kind = .instanceAssign then some .rememberAssignment
      else if kind = .operatorAssign then some .rememberDefault
      else none := by
  cases kind <;> rfl

theorem action?_review (options : Options) (kind : NodeKind) :
    (Rule.isolateSeedData options).action? .review kind =
      if kind = .call then some .reportCall else none := by
  cases kind <;> rfl

theorem handler?_eq_action? {phase : Phase} (options : Options) (kind : NodeKind)
    (hphase : ∀ name, phase ≠ .other name) :
    (Rule.isolateSeedData options).handler? phase kind =
      .ok ((Rule.isolateSeedData options).action? phase kind) := by
  cases phase with
  | prepare => cases kind <;> rfl
  | review => cases kind <;> rfl
  | other name => exact absurd rfl (hphase name)

theorem handle_prepare (hrule : run.rule = .isolateSeedData options) (hsides : n.SidesFit) :
    run.handle .prepare n = .ok (run.remember n.newName?) := by
  unfold handle
  rw [hrule, handler?_eq_action? _ _ (by simp), action?_prepare]
  by_cases hassign : n.kind = .localAssign ∨ n.kind = .instanceAssign
  . rw [if_pos hassign]
    simp only [apply]
    rw [SeedData.newVariable?_assign hassign hsides]
    rfl
  . rw [if_neg hassign]
    by_cases hoperator : n.kind = .operatorAssign
    . rw [if_pos hoperator]
      simp only [apply]
      rw [SeedData.newDefault?_eq hoperator hsides]
      rfl
    . rw [if_neg hoperator, Node.newName?_eq_none hassign hoperator]
      rfl

theorem handle_review (hrule : run.rule = .isolateSeedData options)
    (hphase : run.phase = some .review) :
    run.handle .review n = .ok
      (if n.inserts run.newVariables then
        { run with errors := run.errors.push (run.report SeedData.message n) }
      else run) := by
  unfold handle
  rw [hrule, handler?_eq_action? _ _ (by simp), action?_review]
  by_cases hcall : n.kind = .call
  . rw [if_pos hcall]
    simp only [apply, reportCall]
    rw [SeedData.insertsRecord_eq hcall]
    cases hinserts : n.inserts run.newVariables with
    | true =>
      have hemit := emit_eq_ok_iff.2 (And.intro hphase (Eq.refl
        { run with errors := run.errors.push (run.report SeedData.message n) }))
      simp [bind, Except.bind, hemit, orStop, hrule]
    | false => rfl
  . rw [if_neg hcall]
    simp [Node.inserts, hcall]

end RuleRun

namespace Engine

open SeedData

variable {options : Options}

theorem appendList_nil {α : Type} (as : Array α) : as.appendList [] = as := by
  simp

theorem appendList_appendList {α : Type} (as : Array α) (first second : List α) :
    (as.appendList first).appendList second = as.appendList (first ++ second) := by
  apply Array.ext'
  simp

def remembered (ns : List Node) (names : List String) : List String :=
  (ns.filterMap Node.newName?).foldl (fun names name => names.insert name) names

theorem mem_remembered {ns : List Node} {names : List String} {name : String} :
    name ∈ remembered ns names ↔ name ∈ names ∨ name ∈ ns.filterMap Node.newName? :=
  mem_foldl_insert

theorem nodup_remembered {ns : List Node} {names : List String} (h : names.Nodup) :
    (remembered ns names).Nodup :=
  nodup_foldl_insert h

theorem visitNode_remember {run : RuleRun} {n : Node} (hrule : run.rule = .isolateSeedData options)
    (hsides : n.SidesFit) :
    visitNode .prepare n [run] = .ok ([run.remember n.newName?], []) := by
  simp only [visitNode, RuleRun.handle_prepare hrule hsides]
  simp [(RuleRun.silent_remember run n.newName?).errors]

theorem visitNodes_remember {run : RuleRun} {emitted : Array Diagnostic} {ns : List Node}
    (hrule : run.rule = .isolateSeedData options) (hsides : ∀ n ∈ ns, n.SidesFit) :
    visitNodes .prepare ⟨[run], emitted⟩ ns =
      .ok ⟨[{ run with newVariables := remembered ns run.newVariables }], emitted⟩ := by
  -- The run carries the names found so far, so it is arbitrary here.
  induction ns generalizing run with
  | nil => rfl
  | cons n ns ih =>
    have hsilent := RuleRun.silent_remember run n.newName?
    rw [visitNodes, visitNode_remember hrule (hsides n List.mem_cons_self)]
    simp only [appendList_nil]
    rw [ih (hsilent.rule.trans hrule) fun n hn => hsides n (List.mem_cons_of_mem _ hn)]
    unfold remembered
    cases hname : n.newName? with
    | none => simp [RuleRun.remember, hname]
    | some name => simp [RuleRun.remember, hname]

def found (run : RuleRun) (ns : List Node) : List Diagnostic :=
  (ns.filter (·.inserts run.newVariables)).map (run.report message)

theorem found_cons (run : RuleRun) (n : Node) (ns : List Node) :
    found run (n :: ns) = found run [n] ++ found run ns := by
  unfold found
  rw [← List.map_append, ← List.filter_append]
  rfl

theorem visitNode_report {run : RuleRun} {n : Node} (hrule : run.rule = .isolateSeedData options)
    (hphase : run.phase = some .review) :
    visitNode .review n [run] =
      .ok ([{ run with errors := run.errors.appendList (found run [n]) }], found run [n]) := by
  simp only [visitNode, RuleRun.handle_review hrule hphase, found]
  cases hinserts : n.inserts run.newVariables with
  | true => simp [hinserts]
  | false => simp [hinserts]

theorem visitNodes_report (run : RuleRun) (emitted : Array Diagnostic) {ns : List Node}
    (hrule : run.rule = .isolateSeedData options) (hphase : run.phase = some .review) :
    visitNodes .review ⟨[run], emitted⟩ ns =
      .ok ⟨[{ run with errors := run.errors.appendList (found run ns) }],
        emitted.appendList (found run ns)⟩ := by
  induction ns generalizing run emitted with
  | nil => simp [visitNodes, found]
  | cons n ns ih =>
    -- Reporting leaves the names alone, so the rest is judged by the same ones.
    let reported : RuleRun := { run with errors := run.errors.appendList (found run [n]) }
    have hfound : found reported ns = found run ns := rfl
    rw [visitNodes, visitNode_report hrule hphase]
    simp only
    rw [ih reported _ hrule hphase, hfound, found_cons run n ns, appendList_appendList,
      appendList_appendList]

/--
The only run over a migration when both phases have ended.
-/
def finished (options : Options) (ns : List Node) : RuleRun :=
  let reviewing : RuleRun :=
    { rule := .isolateSeedData options, phase := some .review, newVariables := remembered ns [] }
  { reviewing with errors := (found reviewing ns).toArray }

theorem passes_seedData {ns : List Node} (hsides : ∀ n ∈ ns, n.SidesFit) :
    passes ns [{ rule := .isolateSeedData options }] =
      .ok ⟨[finished options ns], (finished options ns).errors⟩ := by
  unfold passes runPhase
  simp only [List.map_cons, List.map_nil, RuleRun.begin]
  rw [visitNodes_remember rfl hsides]
  simp only [List.map_cons, List.map_nil]
  rw [visitNodes_report _ _ rfl rfl]
  simp [finished, found]

theorem appliesTo_iff (options : Options) {file : WideText} :
    (Rule.isolateSeedData options).appliesTo file ↔ "migration" ∈ Path.classify file := by
  simp [Rule.appliesTo, Rule.categories, Path.matchesAny]

theorem inserts_congr {first second : List String} (h : ∀ name, name ∈ first ↔ name ∈ second)
    (n : Node) : n.inserts first = n.inserts second := by
  unfold Node.inserts
  simp only [h]

theorem run_migration (options : Options) (sink : Sink) {root : Node} {file : WideText}
    (hfile : "migration" ∈ Path.classify file) (hsides : ∀ n ∈ root.nodes, n.SidesFit) :
    let engine : Engine := { rules := [.isolateSeedData options], sink }
    (engine.run (some root) file).outcome = .ok (finished options root.nodes).errors.toList
      ∧ (engine.run (some root) file).runs = [finished options root.nodes] := by
  intro engine
  have happlies := (appliesTo_iff options).2 hfile
  have hparticipants : participants engine.rules file = [{ rule := .isolateSeedData options }] := by
    simp [engine, participants, happlies]
  have hrun := run_some engine root file
  rw [hparticipants, passes_seedData hsides] at hrun
  refine ⟨hrun.1, hrun.2.trans ?_⟩
  simp [engine, rejoin, happlies]

theorem run_elsewhere (options : Options) (sink : Sink) {root : Node} {file : WideText}
    (hfile : "migration" ∉ Path.classify file) :
    let engine : Engine := { rules := [.isolateSeedData options], sink }
    (engine.run (some root) file).outcome = .ok []
      ∧ (engine.run (some root) file).runs = [{ rule := .isolateSeedData options }] := by
  intro engine
  have happlies : (Rule.isolateSeedData options).appliesTo file = false := by
    rw [Bool.eq_false_iff, ne_eq, appliesTo_iff]
    exact hfile
  have hparticipants : participants engine.rules file = [] := by
    simp [engine, participants, happlies]
  have hrun := run_some engine root file
  rw [hparticipants, passes_nobody] at hrun
  refine ⟨hrun.1, hrun.2.trans ?_⟩
  simp [engine, rejoin]

theorem errors_finished (options : Options) (ns : List Node) :
    (finished options ns).errors.toList =
      (ns.filter (·.inserts (ns.filterMap Node.newName?))).map fun n =>
        ⟨"IsolateSeedDataCheck", "isolate seed data", n.location⟩ := by
  have htracked (name : String) :
      name ∈ remembered ns [] ↔ name ∈ ns.filterMap Node.newName? := by
    simp [mem_remembered]
  unfold finished found
  simp only [inserts_congr htracked]
  rfl

/--
One run of the rule on seed data over a file. In a migration it does not fail, it ends with the
names that some node of the tree binds to a new record, and it reports the nodes that insert a
record, judged by these names; elsewhere it does nothing.
-/
theorem run_seedData (options : Options) (sink : Sink) (root : Node) (file : WideText) :
    let engine : Engine := { rules := [.isolateSeedData options], sink }
    let result := engine.run (some root) file
    let tracked := root.nodes.filterMap Node.newName?
    ("migration" ∈ Path.classify file → (∀ n ∈ root.nodes, n.SidesFit) →
      (∃ run, result.runs = [run] ∧ run.newVariables.Nodup
        ∧ ∀ name, name ∈ run.newVariables ↔ name ∈ tracked)
      ∧ result.outcome = .ok ((root.nodes.filter (·.inserts tracked)).map fun n =>
          ⟨"IsolateSeedDataCheck", "isolate seed data", n.location⟩))
    ∧ ("migration" ∉ Path.classify file →
      (∃ run, result.runs = [run] ∧ run.newVariables = []) ∧ result.outcome = .ok []) := by
  intro engine result tracked
  constructor
  . intro hfile hsides
    obtain ⟨houtcome, hruns⟩ := run_migration options sink hfile hsides
    refine ⟨⟨_, hruns, ?_, ?_⟩, ?_⟩
    . exact nodup_remembered List.nodup_nil
    . intro name
      simp [finished, mem_remembered, tracked]
    . rw [← errors_finished options]
      exact houtcome
  . intro hfile
    obtain ⟨houtcome, hruns⟩ := run_elsewhere options sink hfile
    exact ⟨⟨_, hruns, rfl⟩, houtcome⟩

def saveBeforeNew : Node :=
  .mk .program ⟨"roles.rb", 1⟩ "role.save; role = Role.new" []
    [.mk .call ⟨"roles.rb", 1⟩ "role.save" [("subject", .child 0), ("message", .text "save")]
      [.mk .localVar ⟨"roles.rb", 1⟩ "role" [] []],
     .mk .localAssign ⟨"roles.rb", 2⟩ "role = Role.new"
      [("left_value", .child 0), ("right_value", .child 1)]
      [.mk .localVar ⟨"roles.rb", 2⟩ "role" [] [],
       .mk .call ⟨"roles.rb", 2⟩ "Role.new" [("message", .text "new")] []]]

theorem run_saveBeforeNew :
    let engine : Engine := { rules := [.isolateSeedData []] }
    let result := engine.run (some saveBeforeNew) "db/migrate/1_roles.rb"
    (∃ run, result.runs = [run] ∧ ∀ name, name ∈ run.newVariables ↔ name = "role")
      ∧ result.outcome =
          .ok [⟨"IsolateSeedDataCheck", "isolate seed data", ⟨"roles.rb", 1⟩⟩]
      ∧ (engine.run (some saveBeforeNew) "app/models/role.rb").outcome = .ok [] := by
  intro engine result
  obtain ⟨⟨run, hruns, _, hnames⟩, houtcome⟩ :=
    (run_seedData [] #[] saveBeforeNew "db/migrate/1_roles.rb").1 (by decide) (by decide)
  obtain ⟨_, helsewhere⟩ :=
    (run_seedData [] #[] saveBeforeNew "app/models/role.rb").2 (by decide)
  refine ⟨⟨run, hruns, ?_⟩, houtcome, helsewhere⟩
  intro name
  rw [hnames]
  exact List.mem_singleton

end Engine

end MigrationLint
