import MigrationLint.Proofs.Rule.Handle

/-!
This module contains what one run of an engine does, whatever its rules are: it goes over the nodes
in both phases with the runs that take part, and it adds what it returns to the sink. If no rule
begins a phase itself, the first pass emits nothing, and an action that would emit stops it.
-/

namespace MigrationLint

namespace Engine

def participants (rules : List Rule) (file : WideText) : List RuleRun :=
  (rules.filter (·.appliesTo file)).map fun rule => { rule }

def passes (nodes : List Node) (runs : List RuleRun) :
    Except (RuleError × List RuleRun) Progress :=
  match runPhase .prepare nodes ⟨runs, #[]⟩ with
  | .error failure => .error failure
  | .ok progress => runPhase .review nodes progress

/--
The diagnostics that a run of an engine returns; a run that fails returns none.
-/
def Result.returned (result : Result) : List Diagnostic :=
  match result.outcome with
  | .ok diagnostics => diagnostics
  | .error _ => []

theorem visitNode_cons_eq_ok {phase : Phase} {n : Node} {run : RuleRun} {runs next : List RuleRun}
    {emitted : List Diagnostic} (h : visitNode phase n (run :: runs) = .ok (next, emitted)) :
    ∃ first rest later, run.handle phase n = .ok first ∧ visitNode phase n runs = .ok (rest, later)
      ∧ next = first :: rest
      ∧ emitted = (first.errors.extract run.errors.size).toList ++ later := by
  unfold visitNode at h
  dsimp only at h
  split at h
  . cases h
  . next first hfirst =>
    split at h
    . cases h
    . next rest later hrest =>
      cases h
      exact ⟨first, rest, later, hfirst, hrest, rfl, rfl⟩

theorem visitNodes_cons_eq_ok {phase : Phase} {n : Node} {ns : List Node} {progress last : Progress}
    (h : visitNodes phase progress (n :: ns) = .ok last) :
    ∃ runs emitted, visitNode phase n progress.runs = .ok (runs, emitted)
      ∧ visitNodes phase ⟨runs, progress.emitted.appendList emitted⟩ ns = .ok last := by
  unfold visitNodes at h
  split at h
  . cases h
  . next runs emitted hnode => exact ⟨runs, emitted, hnode, h⟩

theorem visitNodes_nobody (phase : Phase) (emitted : Array Diagnostic) (ns : List Node) :
    visitNodes phase ⟨[], emitted⟩ ns = .ok ⟨[], emitted⟩ := by
  induction ns with
  | nil => rfl
  | cons n ns ih => simp [visitNodes, visitNode, ih]

theorem passes_nobody (nodes : List Node) : passes nodes [] = .ok ⟨[], #[]⟩ := by
  simp [passes, runPhase, visitNodes_nobody]

theorem run_some (engine : Engine) (root : Node) (file : WideText) :
    let result := engine.run (some root) file
    match passes root.nodes (participants engine.rules file) with
    | .error (error, runs) =>
      result.outcome = .error error ∧ result.runs = rejoin file engine.rules runs
    | .ok progress =>
      result.outcome = .ok progress.emitted.toList
        ∧ result.runs = rejoin file engine.rules progress.runs := by
  intro result
  cases hruns : participants engine.rules file with
  | nil =>
    have hempty : (participants engine.rules file).isEmpty := by rw [hruns]; rfl
    unfold participants at hempty
    simp [result, run, hempty, passes_nobody]
  | cons first rest =>
    have hempty : (participants engine.rules file).isEmpty = false := by rw [hruns]; rfl
    rw [← hruns, participants] at *
    simp only [result, run, passes, hempty, Node.preorder_eq_nodes, Bool.false_eq_true,
      ↓reduceIte]
    cases hprepare : runPhase .prepare root.nodes
        ⟨(engine.rules.filter (·.appliesTo file)).map fun rule => { rule }, #[]⟩ with
    | error failure => exact ⟨rfl, rfl⟩
    | ok progress =>
      simp only
      cases hreview : runPhase .review root.nodes progress with
      | error failure => exact ⟨rfl, rfl⟩
      | ok progress => exact ⟨rfl, rfl⟩

theorem run_eq_ok {engine : Engine} {root : Node} {file : WideText} {diagnostics : List Diagnostic}
    (h : (engine.run (some root) file).outcome = .ok diagnostics) :
    ∃ last, passes root.nodes (participants engine.rules file) = .ok last
      ∧ diagnostics = last.emitted.toList
      ∧ (engine.run (some root) file).runs = rejoin file engine.rules last.runs := by
  have hrun := run_some engine root file
  dsimp only at hrun
  split at hrun
  . rw [hrun.1] at h
    cases h
  . next last hlast =>
    rw [hrun.1] at h
    cases h
    exact ⟨last, hlast, rfl, hrun.2⟩

theorem run_eq_error {engine : Engine} {root : Node} {file : WideText} {error : RuleError}
    (h : (engine.run (some root) file).outcome = .error error) :
    ∃ runs, passes root.nodes (participants engine.rules file) = .error (error, runs) := by
  have hrun := run_some engine root file
  dsimp only at hrun
  split at hrun
  . next runs hpasses =>
    rw [hrun.1] at h
    cases h
    exact ⟨runs, hpasses⟩
  . rw [hrun.1] at h
    cases h

theorem run_sink (rules : List Rule) (sink : Sink) (root : Option Node) (file : WideText) :
    let fresh := ({ rules } : Engine).run root file
    ({ rules, sink } : Engine).run root file =
      { fresh with engine := { rules, sink := sink.extend fresh.returned } } := by
  unfold run Result.returned
  dsimp only
  -- Nobody takes part, there is no tree, a phase fails, or the review ends.
  split
  . simp [Sink.extend]
  . split
    . simp [Sink.extend]
    . split
      . simp [Sink.extend]
      . split
        . simp [Sink.extend]
        . rfl

theorem run_outcome (engine : Engine) (root : Option Node) (file : WideText) :
    (engine.run root file).outcome =
      (({ rules := engine.rules } : Engine).run root file).outcome := by
  rw [run_sink engine.rules engine.sink]

theorem run_returned (engine : Engine) (root : Option Node) (file : WideText) :
    (engine.run root file).returned =
      (({ rules := engine.rules } : Engine).run root file).returned := by
  rw [Result.returned, run_outcome]
  rfl

theorem run_engine (engine : Engine) (root : Option Node) (file : WideText) :
    (engine.run root file).engine =
      { engine with sink := engine.sink.extend (engine.run root file).returned } := by
  rw [run_returned, run_sink engine.rules engine.sink]

def Preparing (runs : List RuleRun) : Prop :=
  ∀ run ∈ runs, run.phase = some .prepare ∧ run.errors = #[] ∧ run.rule.NeverBegins

def NoEmit (n : Node) (rules : List Rule) : Prop :=
  ∀ rule ∈ rules, ∀ actions, rule.handler? .prepare n.kind = .ok (some (.script actions)) →
    ∀ message, .emit message ∉ actions

theorem visitNode_preparing {n : Node} {runs next : List RuleRun} {emitted : List Diagnostic}
    (h : visitNode .prepare n runs = .ok (next, emitted)) (hruns : Preparing runs) :
    emitted = [] ∧ Preparing next ∧ next.map (·.rule) = runs.map (·.rule)
      ∧ NoEmit n (runs.map (·.rule)) := by
  induction runs generalizing next emitted with
  | nil =>
    cases h
    simp [Preparing, NoEmit]
  | cons run runs ih =>
    obtain ⟨first, rest, later, hfirst, hrest, rfl, rfl⟩ := visitNode_cons_eq_ok h
    obtain ⟨hphase, herrors, hbegins⟩ := hruns run List.mem_cons_self
    obtain ⟨hsilent, hemit⟩ := RuleRun.silent_of_handle hfirst (by simp [hphase]) hbegins
    obtain ⟨rfl, hnext, hrules, hlater⟩ :=
      ih hrest fun run hrun => hruns run (List.mem_cons_of_mem _ hrun)
    refine ⟨?_, ?_, ?_, ?_⟩
    . simp [hsilent.errors, herrors]
    . intro other hother
      rcases List.mem_cons.1 hother with rfl | hother
      . rw [hsilent.phase, hsilent.errors, hsilent.rule]
        exact ⟨hphase, herrors, hbegins⟩
      . exact hnext other hother
    . simp [hsilent.rule, hrules]
    . intro rule hrule
      rcases List.mem_cons.1 hrule with rfl | hrule
      . exact hemit
      . exact hlater rule hrule

theorem visitNodes_preparing {ns : List Node} {progress last : Progress}
    (h : visitNodes .prepare progress ns = .ok last) (hruns : Preparing progress.runs)
    (hemitted : progress.emitted = #[]) :
    last.emitted = #[] ∧ Preparing last.runs
      ∧ ∀ n ∈ ns, NoEmit n (progress.runs.map (·.rule)) := by
  induction ns generalizing progress with
  | nil =>
    cases h
    exact ⟨hemitted, hruns, by simp⟩
  | cons n ns ih =>
    obtain ⟨runs, emitted, hnode, hnodes⟩ := visitNodes_cons_eq_ok h
    obtain ⟨rfl, hnext, hrules, hnone⟩ := visitNode_preparing hnode hruns
    obtain ⟨hlast, hlastRuns, hrest⟩ := ih hnodes hnext (by simp [hemitted])
    refine ⟨hlast, hlastRuns, ?_⟩
    intro other hother
    rcases List.mem_cons.1 hother with rfl | hother
    . exact hnone
    . rw [← hrules]
      exact hrest other hother

theorem runPhase_preparing {nodes : List Node} {rules : List Rule} {file : WideText}
    {progress : Progress} (hrules : ∀ rule ∈ rules, rule.NeverBegins)
    (h : runPhase .prepare nodes ⟨participants rules file, #[]⟩ = .ok progress) :
    progress.emitted = #[] ∧ Preparing progress.runs
      ∧ ∀ n ∈ nodes, NoEmit n (rules.filter (·.appliesTo file)) := by
  have hruns : Preparing ((participants rules file).map (·.begin (some .prepare))) := by
    intro run hrun
    obtain ⟨fresh, hfresh, rfl⟩ := List.mem_map.1 hrun
    obtain ⟨rule, hrule, rfl⟩ := List.mem_map.1 hfresh
    exact ⟨rfl, rfl, hrules rule (List.mem_filter.1 hrule).1⟩
  have := visitNodes_preparing h hruns rfl
  simpa [participants, RuleRun.begin, Function.comp_def] using this

end Engine

end MigrationLint
