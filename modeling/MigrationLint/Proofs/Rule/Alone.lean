import Mathlib.Data.Prod.Lex
import MigrationLint.Proofs.Rule.Handle

/-!
This module contains runs that are on their own: one rule goes over the nodes of a file in both
phases, and what it emits is recorded with the moment at which it does so. A run never takes back
what it has emitted, and what it emits about a node bears the name of its rule and the place of the
node.
-/

namespace MigrationLint

def Phase.rank : Phase → ℕ
  | prepare => 0
  | review => 1
  | other _ => 2

/--
When a rule handles a node: the phase, the position of the node in pre-order, and the position of
the rule among those of its engine.
-/
structure Moment where
  phase : Phase
  position : ℕ
  rule : ℕ
  deriving DecidableEq, Repr

/--
Moments are ordered by phase, then by node, then by rule.
-/
def Moment.key (m : Moment) : ℕ ×ₗ ℕ ×ₗ ℕ :=
  toLex (m.phase.rank, toLex (m.position, m.rule))

structure Emission where
  moment : Moment
  diagnostic : Diagnostic
  deriving DecidableEq, Repr

/--
What becomes of a run on its own: its state in the end with what it emitted, or the moment at which
it failed with the error.
-/
abbrev Course := Except (Moment × RuleError) (RuleRun × List Emission)

namespace Course

def andThen (first : Course) (second : RuleRun → Course) : Course :=
  match first with
  | .error failure => .error failure
  | .ok (run, early) =>
    match second run with
    | .error failure => .error failure
    | .ok (last, late) => .ok (last, early ++ late)

def Within (P : Moment → Prop) : Course → Prop
  | .error (moment, _) => P moment
  | .ok (_, emissions) => ∀ e ∈ emissions, P e.moment

theorem andThen_ok (run : RuleRun) (early : List Emission) (second : RuleRun → Course) :
    andThen (.ok (run, early)) second =
      (second run).map fun (last, late) => (last, early ++ late) := by
  unfold andThen
  dsimp only
  cases second run <;> rfl

theorem andThen_eq_error_iff {first : Course} {second : RuleRun → Course}
    {failure : Moment × RuleError} :
    first.andThen second = .error failure ↔
      first = .error failure ∨
        ∃ run early, first = .ok (run, early) ∧ second run = .error failure := by
  cases first with
  | error other => simp [andThen]
  | ok result =>
    obtain ⟨run, early⟩ := result
    rw [andThen_ok]
    cases hcourse : second run <;> simp [Except.map, hcourse]

theorem Within.mono {P Q : Moment → Prop} {course : Course} (h : course.Within P)
    (hPQ : ∀ m, P m → Q m) : course.Within Q := by
  cases course with
  | error failure => exact hPQ _ h
  | ok result => exact fun e he => hPQ _ (h e he)

theorem within_andThen {P : Moment → Prop} {first : Course} {second : RuleRun → Course}
    (hfirst : first.Within P) (hsecond : ∀ run, (second run).Within P) :
    (first.andThen second).Within P := by
  cases first with
  | error failure => exact hfirst
  | ok result =>
    obtain ⟨run, early⟩ := result
    have hlate := hsecond run
    rw [andThen_ok]
    cases hcourse : second run with
    | error failure =>
      rw [hcourse] at hlate
      exact hlate
    | ok result =>
      rw [hcourse] at hlate
      intro e he
      rcases List.mem_append.1 he with he | he
      . exact hfirst e he
      . exact hlate e he

end Course

namespace RuleRun

variable {run next : RuleRun} {n : Node}

theorem toList_extract_of_append {α : Type} {before after : Array α} {added : List α}
    (h : after.toList = before.toList ++ added) :
    (after.extract before.size).toList = added := by
  have hsize : after.size = before.size + added.length := by
    simpa using congrArg List.length h
  simp [h, hsize]

/--
What a step on a node may do to the diagnostics of a run: it adds to them, under the name of the
rule and about the place of the node.
-/
structure Reports (n : Node) (run next : RuleRun) : Prop where
  rule : next.rule = run.rule
  errors : ∃ added, next.errors.toList = run.errors.toList ++ added
    ∧ ∀ d ∈ added, d.rule = run.rule.identifier ∧ d.location = n.location

namespace Reports

theorem of_errors_eq (hrule : next.rule = run.rule) (herrors : next.errors = run.errors) :
    Reports n run next :=
  ⟨hrule, [], by simp [herrors], by simp⟩

theorem refl (n : Node) (run : RuleRun) : Reports n run run :=
  of_errors_eq rfl rfl

theorem push (n : Node) (run : RuleRun) (message : String) :
    Reports n run { run with errors := run.errors.push (run.report message n) } :=
  ⟨rfl, [run.report message n], by simp, by simp [report]⟩

theorem trans {middle : RuleRun} (h₁ : Reports n run middle) (h₂ : Reports n middle next) :
    Reports n run next := by
  obtain ⟨first, hfirst, hearly⟩ := h₁.errors
  obtain ⟨second, hsecond, hlate⟩ := h₂.errors
  refine ⟨h₂.rule.trans h₁.rule, first ++ second, ?_, ?_⟩
  . rw [hsecond, hfirst, List.append_assoc]
  . intro d hd
    rcases List.mem_append.1 hd with hd | hd
    . exact hearly d hd
    . rw [← h₁.rule]
      exact hlate d hd

theorem of_silent (h : Silent run next) : Reports n run next :=
  of_errors_eq h.rule h.errors

end Reports

theorem reports_of_act {action : Action} (h : act n run action = .ok next) :
    Reports n run next := by
  cases acts_of_act h with
  | visit => exact .of_errors_eq rfl rfl
  | emit message => exact .push n run message
  | role name target htarget => exact .of_errors_eq rfl rfl
  | begin phase => exact .of_errors_eq rfl rfl

theorem reports_of_script {actions : List Action} (h : actions.foldlM (act n) run = .ok next) :
    Reports n run next := by
  induction actions generalizing run with
  | nil =>
    cases h
    exact .refl n _
  | cons action actions ih =>
    rw [List.foldlM_cons] at h
    cases hact : act n run action with
    | error stopped =>
      rw [hact] at h
      cases h
    | ok middle =>
      rw [hact] at h
      exact (reports_of_act hact).trans (ih h)

theorem reports_of_apply {handler : Handler} (h : run.apply handler n = .ok next) :
    Reports n run next := by
  cases handler with
  | rememberAssignment => exact .of_silent (silent_of_map_remember (orStop_eq_ok_iff.1 h))
  | rememberDefault => exact .of_silent (silent_of_map_remember (orStop_eq_ok_iff.1 h))
  | reportCall =>
    rcases reportCall_ok (orStop_eq_ok_iff.1 h) with rfl | ⟨_, rfl⟩
    . exact .refl n _
    . exact .push n run SeedData.message
  | script actions => exact reports_of_script h

theorem reports_of_handle {phase : Phase} (h : run.handle phase n = .ok next) :
    Reports n run next := by
  unfold handle at h
  split at h
  . cases h
  . cases h
    exact .refl n _
  . exact reports_of_apply h

/--
Let a run handle a node at a moment.
-/
def visit (run : RuleRun) (moment : Moment) (n : Node) : Course :=
  match run.handle moment.phase n with
  | .error stopped => .error (moment, stopped.error)
  | .ok next => .ok (next, (next.errors.extract run.errors.size).toList.map (⟨moment, ·⟩))

def walk (run : RuleRun) (phase : Phase) (rule position : ℕ) : List Node → Course
  | [] => .ok (run, [])
  | n :: ns =>
    (run.visit ⟨phase, position, rule⟩ n).andThen fun next => next.walk phase rule (position + 1) ns

def pass (run : RuleRun) (phase : Phase) (rule : ℕ) (nodes : List Node) : Course :=
  (run.begin (some phase)).walk phase rule 0 nodes

/--
Let a run go over the nodes of a file in both phases, on its own.
-/
def alone (run : RuleRun) (rule : ℕ) (nodes : List Node) : Course :=
  (run.pass .prepare rule nodes).andThen (·.pass .review rule nodes)

theorem within_visit (run : RuleRun) (moment : Moment) (n : Node) :
    (run.visit moment n).Within (· = moment) := by
  unfold visit
  split
  . exact rfl
  . intro e he
    obtain ⟨d, _, rfl⟩ := List.mem_map.1 he
    rfl

theorem within_walk (run : RuleRun) (phase : Phase) (rule position : ℕ) (ns : List Node) :
    (run.walk phase rule position ns).Within fun m => m.phase = phase ∧ position ≤ m.position := by
  induction ns generalizing run position with
  | nil => simp [walk, Course.Within]
  | cons n ns ih =>
    apply Course.within_andThen
    . refine (within_visit _ _ n).mono ?_
      rintro m rfl
      exact ⟨rfl, Nat.le_refl position⟩
    . intro next
      exact (ih next (position + 1)).mono fun m hm => ⟨hm.1, Nat.le_of_succ_le hm.2⟩

theorem within_pass (run : RuleRun) (phase : Phase) (rule : ℕ) (nodes : List Node) :
    (run.pass phase rule nodes).Within (·.phase = phase) :=
  (within_walk _ phase rule 0 nodes).mono fun _ hm => hm.1

end RuleRun

/--
What an emission of a course bears: the name of a rule, and the place of a node.
-/
def Emission.Signed (rule : Rule) (nodes : List Node) (e : Emission) : Prop :=
  e.diagnostic.rule = rule.identifier ∧ ∃ n ∈ nodes, e.diagnostic.location = n.location

/--
A course that ended with the diagnostics of its run and nothing else, all of them signed.
-/
def Course.Recorded (nodes : List Node) (run : RuleRun) : Course → Prop
  | .error _ => True
  | .ok (last, emissions) =>
    last.rule = run.rule
      ∧ last.errors.toList = run.errors.toList ++ emissions.map (·.diagnostic)
      ∧ ∀ e ∈ emissions, e.Signed run.rule nodes

namespace RuleRun

open Course

theorem recorded_andThen {nodes : List Node} {run : RuleRun} {first : Course}
    {second : RuleRun → Course} (hfirst : first.Recorded nodes run)
    (hsecond : ∀ next, (second next).Recorded nodes next) :
    (first.andThen second).Recorded nodes run := by
  cases first with
  | error failure => exact trivial
  | ok result =>
    obtain ⟨next, early⟩ := result
    obtain ⟨hrule, herrors, hsigned⟩ := hfirst
    have hlate := hsecond next
    rw [andThen_ok]
    cases hcourse : second next with
    | error failure => exact trivial
    | ok result =>
      rw [hcourse] at hlate
      obtain ⟨hlateRule, hlateErrors, hlateSigned⟩ := hlate
      refine ⟨hlateRule.trans hrule, ?_, ?_⟩
      . rw [hlateErrors, herrors, List.map_append, List.append_assoc]
      . intro e he
        rcases List.mem_append.1 he with he | he
        . exact hsigned e he
        . rw [← hrule]
          exact hlateSigned e he

theorem recorded_visit {nodes : List Node} (run : RuleRun) (moment : Moment) {n : Node}
    (hn : n ∈ nodes) : (run.visit moment n).Recorded nodes run := by
  unfold visit
  split
  . exact trivial
  . next next hnext =>
    obtain ⟨hrule, added, herrors, hadded⟩ := reports_of_handle hnext
    rw [toList_extract_of_append herrors]
    refine ⟨hrule, by simp [herrors, Function.comp_def], ?_⟩
    intro e he
    obtain ⟨d, hd, rfl⟩ := List.mem_map.1 he
    exact ⟨(hadded d hd).1, n, hn, (hadded d hd).2⟩

theorem recorded_walk {nodes ns : List Node} (run : RuleRun) (phase : Phase) (rule position : ℕ)
    (hns : ns ⊆ nodes) : (run.walk phase rule position ns).Recorded nodes run := by
  induction ns generalizing run position with
  | nil => exact ⟨rfl, by simp, by simp⟩
  | cons n ns ih =>
    apply recorded_andThen
    . exact recorded_visit run _ (hns List.mem_cons_self)
    . exact fun next => ih next _ (List.subset_of_cons_subset hns)

theorem recorded_pass (run : RuleRun) (phase : Phase) (rule : ℕ) (nodes : List Node) :
    (run.pass phase rule nodes).Recorded nodes run :=
  recorded_walk (run.begin (some phase)) phase rule 0 (List.Subset.refl nodes)

theorem recorded_alone (run : RuleRun) (rule : ℕ) (nodes : List Node) :
    (run.alone rule nodes).Recorded nodes run :=
  recorded_andThen (recorded_pass run .prepare rule nodes)
    fun next => recorded_pass next .review rule nodes

end RuleRun

end MigrationLint
