import MigrationLint.Proofs.Rule.Engine

/-!
This module contains histories of an engine: sequences of runs, some of which may fail. A run leaves
no trace but what it returned, and a run that fails leaves none at all.
-/

namespace MigrationLint

namespace Engine

def sinkAfter (engine : Engine) (calls : List (Option Node × WideText)) : Sink :=
  ((engine.runAll calls).getLast?.map (·.engine.sink)).getD engine.sink

theorem sinkAfter_cons (engine : Engine) (root : Option Node) (file : WideText)
    (calls : List (Option Node × WideText)) :
    engine.sinkAfter ((root, file) :: calls) = (engine.run root file).engine.sinkAfter calls := by
  unfold sinkAfter
  rw [runAll, List.getLast?_cons]
  cases ((engine.run root file).engine.runAll calls).getLast? <;> rfl

theorem runAll_outcome (engine : Engine) (calls : List (Option Node × WideText)) :
    (engine.runAll calls).map (·.outcome) =
      calls.map fun (root, file) =>
        (({ rules := engine.rules } : Engine).run root file).outcome := by
  induction calls generalizing engine with
  | nil => rfl
  | cons call calls ih =>
    obtain ⟨root, file⟩ := call
    rw [runAll, List.map_cons, List.map_cons, ih, run_outcome, run_engine]

theorem toList_sinkAfter (engine : Engine) (calls : List (Option Node × WideText)) :
    (engine.sinkAfter calls).toList =
      engine.sink.toList ++ (engine.runAll calls).flatMap (·.returned) := by
  induction calls generalizing engine with
  | nil => simp [sinkAfter, runAll]
  | cons call calls ih =>
    obtain ⟨root, file⟩ := call
    rw [sinkAfter_cons, ih, runAll, List.flatMap_cons, ← List.append_assoc]
    congr 1
    rw [run_engine, Sink.toList_extend]

theorem sinkAfter_concat (engine : Engine) (calls : List (Option Node × WideText))
    (root : Option Node) (file : WideText) :
    engine.sinkAfter (calls ++ [(root, file)]) =
      (engine.sinkAfter calls).extend
        (({ rules := engine.rules } : Engine).run root file).returned := by
  induction calls generalizing engine with
  | nil =>
    rw [List.nil_append, sinkAfter_cons, run_engine, ← run_returned]
    rfl
  | cons call calls ih =>
    obtain ⟨first, name⟩ := call
    rw [List.cons_append, sinkAfter_cons, ih, sinkAfter_cons, run_engine]

theorem returned_of_error {result : Result} {error : RuleError}
    (h : result.outcome = .error error) : result.returned = [] := by
  rw [Result.returned, h]

theorem passes_eq_ok_iff {nodes : List Node} {runs : List RuleRun} {last : Progress} :
    passes nodes runs = .ok last ↔
      ∃ prepared, runPhase .prepare nodes ⟨runs, #[]⟩ = .ok prepared
        ∧ runPhase .review nodes prepared = .ok last := by
  unfold passes
  cases runPhase .prepare nodes ⟨runs, #[]⟩ <;> simp

def EmittedInReview (rules : List Rule) (root : Node) (file : WideText)
    (diagnostics : List Diagnostic) : Prop :=
  ∃ prepared last,
    runPhase .prepare root.nodes ⟨participants rules file, #[]⟩ = .ok ⟨prepared, #[]⟩
      ∧ (∀ run ∈ prepared, run.errors = #[])
      ∧ runPhase .review root.nodes ⟨prepared, #[]⟩ = .ok last
      ∧ diagnostics = last.emitted.toList

theorem noEmit_of_run_eq_ok {engine : Engine} {root : Node} {file : WideText}
    {diagnostics : List Diagnostic} (hrules : ∀ rule ∈ engine.rules, rule.NeverBegins)
    (h : (engine.run (some root) file).outcome = .ok diagnostics) :
    (∀ n ∈ root.nodes, NoEmit n (engine.rules.filter (·.appliesTo file)))
      ∧ EmittedInReview engine.rules root file diagnostics := by
  obtain ⟨last, hpasses, hdiagnostics, _⟩ := run_eq_ok h
  obtain ⟨⟨prepared, emitted⟩, hprepare, hreview⟩ := passes_eq_ok_iff.1 hpasses
  obtain ⟨hemitted, hpreparing, hnone⟩ := runPhase_preparing hrules hprepare
  cases hemitted
  exact ⟨hnone, prepared, last, hprepare, fun run hrun => (hpreparing run hrun).2.1, hreview,
    hdiagnostics⟩

/--
Any history of an engine whose runs may fail. Every run ends as it would with a fresh engine, the
sink holds what the runs returned, and a run that fails adds nothing. If no rule begins a phase
itself, a handler that emits in the first pass stops the run, and what a run returns has been
emitted in the second pass.
-/
theorem runAll_history (engine : Engine) (calls : List (Option Node × WideText)) :
    let fresh : Engine := { rules := engine.rules }
    (engine.runAll calls).map (·.outcome) =
        calls.map (fun (root, file) => (fresh.run root file).outcome)
    ∧ (engine.sinkAfter calls).toList =
        engine.sink.toList ++ (engine.runAll calls).flatMap (·.returned)
    ∧ (∀ root file error, (fresh.run root file).outcome = .error error →
        engine.sinkAfter (calls ++ [(root, file)]) = engine.sinkAfter calls)
    ∧ ((∀ rule ∈ engine.rules, rule.NeverBegins) → ∀ root file,
        (∀ n ∈ root.nodes, ∀ rule ∈ engine.rules, rule.appliesTo file → ∀ actions message,
          rule.handler? .prepare n.kind = .ok (some (.script actions)) → .emit message ∈ actions →
            ∃ error, (fresh.run (some root) file).outcome = .error error)
        ∧ ∀ diagnostics, (fresh.run (some root) file).outcome = .ok diagnostics →
            EmittedInReview engine.rules root file diagnostics) := by
  intro fresh
  refine ⟨runAll_outcome engine calls, toList_sinkAfter engine calls, ?_, ?_⟩
  . intro root file error herror
    rw [sinkAfter_concat, returned_of_error herror, Sink.extend]
    simp
  . intro hrules root file
    have hfresh : ∀ rule ∈ fresh.rules, rule.NeverBegins := hrules
    refine ⟨?_, fun diagnostics h => (noEmit_of_run_eq_ok hfresh h).2⟩
    intro n hn rule hrule happlies actions message hhandler hmessage
    cases houtcome : (fresh.run (some root) file).outcome with
    | error error => exact ⟨error, rfl⟩
    | ok diagnostics =>
      have hnone := (noEmit_of_run_eq_ok hfresh houtcome).1
      exact absurd hmessage
        (hnone n hn rule (List.mem_filter.2 ⟨hrule, happlies⟩) actions hhandler message)

def earlyAndLate : Rule :=
  .scripted ⟨"Noisy", [.call, .localAssign], [],
    [("review_call", [.emit "late"]), ("prepare_lasgn", [.emit "early"])]⟩

def lateOnly : Node :=
  .mk .call ⟨"a.rb", 1⟩ "create" [] []

def lateThenEarly : Node :=
  .mk .program ⟨"b.rb", 1⟩ "create; role = 1" []
    [.mk .call ⟨"b.rb", 1⟩ "create" [] [], .mk .localAssign ⟨"b.rb", 2⟩ "role = 1" [] []]

theorem sinkAfter_lateThenEarly :
    let fresh : Engine := { rules := [earlyAndLate] }
    let late : Diagnostic := ⟨"Noisy", "late", ⟨"a.rb", 1⟩⟩
    let engine : Engine := { rules := [earlyAndLate], sink := #[late] }
    (∃ error, (fresh.run (some lateThenEarly) "b.rb").outcome = .error error)
      ∧ engine.sinkAfter [(some lateOnly, "a.rb"), (some lateThenEarly, "b.rb")] =
          engine.sinkAfter [(some lateOnly, "a.rb")]
      ∧ EmittedInReview [earlyAndLate] lateOnly "a.rb" [late] := by
  intro fresh late engine
  have hrules : ∀ rule ∈ engine.rules, rule.NeverBegins := by
    simp only [engine, List.forall_mem_singleton, earlyAndLate, Rule.NeverBegins]
    simp
  have hlate : (fresh.run (some lateOnly) "a.rb").outcome = .ok [late] :=
    (run_some fresh lateOnly "a.rb").1
  obtain ⟨_, _, hfailed, hemitted⟩ := runAll_history engine [(some lateOnly, "a.rb")]
  have hearly : ∃ error, (fresh.run (some lateThenEarly) "b.rb").outcome = .error error := by
    apply (hemitted hrules lateThenEarly "b.rb").1 (.mk .localAssign ⟨"b.rb", 2⟩ "role = 1" [] [])
      _ earlyAndLate List.mem_cons_self rfl [.emit "early"] "early" rfl List.mem_cons_self
    simp [lateThenEarly, Node.nodes, Node.nodesOf]
  refine ⟨hearly, ?_, (hemitted hrules lateOnly "a.rb").2 [late] hlate⟩
  obtain ⟨error, herror⟩ := hearly
  exact hfailed (some lateThenEarly) "b.rb" error herror

end Engine

end MigrationLint
