import MigrationLint.Rule.Engine

/-!
This module contains what a step of a run can do: an action, a handler, and what a rule does with a
node. Outside of the review phase nothing is emitted, and a rule that begins no phase itself stays
in the phase in which its engine put it.
-/

namespace MigrationLint

def Rule.NeverBegins : Rule → Prop
  | .isolateSeedData _ => True
  | .scripted script => ∀ entry ∈ script.handlers, ∀ phase, .begin phase ∉ entry.2

namespace RuleRun

variable {run next : RuleRun} {n : Node}

def report (run : RuleRun) (message : String) (n : Node) : Diagnostic :=
  ⟨run.rule.identifier, message, n.location⟩

theorem emit_eq_ok_iff {message : String} :
    run.emit message n = .ok next ↔
      run.phase = some .review
        ∧ next = { run with errors := run.errors.push (run.report message n) } := by
  unfold emit
  split
  . next h => simp [h, report, eq_comm]
  . next h => simp [h]

theorem orStop_eq_ok_iff {α : Type} {result : Except RuleError α} {a : α} :
    run.orStop result = .ok a ↔ result = .ok a := by
  cases result <;> simp [orStop]

/--
What an action on a node does to a run, unless it fails.
-/
inductive Acts (n : Node) (run : RuleRun) : Action → RuleRun → Prop where
  | visit : Acts n run .visit { run with notes := run.notes.push (.node run.phase n.kind n.line) }
  | emit (message : String) (hphase : run.phase = some .review) :
    Acts n run (.emit message) { run with errors := run.errors.push (run.report message n) }
  | role (name : String) (target : Option Node.Target) (htarget : n.role name = .ok target) :
    Acts n run (.role name)
      { run with notes := run.notes.push (.role name (target.map Node.Target.show)) }
  | begin (phase : Option Phase) : Acts n run (.begin phase) (run.begin phase)

theorem acts_of_act {action : Action} (h : act n run action = .ok next) :
    Acts n run action next := by
  cases action with
  | visit =>
    cases h
    exact .visit
  | emit message =>
    obtain ⟨hphase, rfl⟩ := emit_eq_ok_iff.1 (orStop_eq_ok_iff.1 h)
    exact .emit message hphase
  | role name =>
    cases htarget : n.role name with
    | error error => simp [act, htarget] at h
    | ok target =>
      simp only [act, htarget] at h
      cases h
      exact .role name target htarget
  | begin phase =>
    cases h
    exact .begin phase

/--
A run that went on without a new phase and without a new diagnostic.
-/
structure Silent (run next : RuleRun) : Prop where
  rule : next.rule = run.rule
  phase : next.phase = run.phase
  errors : next.errors = run.errors

theorem Silent.refl (run : RuleRun) : Silent run run :=
  ⟨rfl, rfl, rfl⟩

theorem Silent.trans {first second third : RuleRun} (h₁ : Silent first second)
    (h₂ : Silent second third) : Silent first third :=
  ⟨h₂.rule.trans h₁.rule, h₂.phase.trans h₁.phase, h₂.errors.trans h₁.errors⟩

theorem silent_of_act {action : Action} (h : act n run action = .ok next)
    (hphase : run.phase ≠ some .review) (hbegin : ∀ phase, action ≠ .begin phase) :
    Silent run next ∧ ∀ message, action ≠ .emit message := by
  cases acts_of_act h with
  | visit => exact ⟨⟨rfl, rfl, rfl⟩, by simp⟩
  | emit message hreview => exact absurd hreview hphase
  | role name target htarget => exact ⟨⟨rfl, rfl, rfl⟩, by simp⟩
  | begin phase => exact absurd rfl (hbegin phase)

theorem silent_of_script {actions : List Action} (h : actions.foldlM (act n) run = .ok next)
    (hphase : run.phase ≠ some .review) (hbegin : ∀ phase, .begin phase ∉ actions) :
    Silent run next ∧ ∀ message, .emit message ∉ actions := by
  -- What holds of the first action leaves the phase as it was, so it holds of the others in turn.
  induction actions generalizing run with
  | nil =>
    cases h
    exact ⟨.refl _, by simp⟩
  | cons action actions ih =>
    rw [List.foldlM_cons] at h
    cases hact : act n run action with
    | error stopped =>
      rw [hact] at h
      cases h
    | ok middle =>
      rw [hact] at h
      have h : actions.foldlM (act n) middle = .ok next := h
      have hfirst := silent_of_act hact hphase fun phase he => hbegin phase (by simp [he])
      have hrest := ih h (by rw [hfirst.1.phase]; exact hphase)
        fun phase hmem => hbegin phase (by simp [hmem])
      refine ⟨hfirst.1.trans hrest.1, ?_⟩
      intro message hmem
      rcases List.mem_cons.1 hmem with he | hmem
      . exact hfirst.2 message he.symm
      . exact hrest.2 message hmem

theorem silent_remember (run : RuleRun) (name : Option String) :
    Silent run (run.remember name) := by
  cases name <;> exact ⟨rfl, rfl, rfl⟩

theorem silent_of_map_remember {result : Except RuleError (Option String)}
    (h : result.map run.remember = .ok next) : Silent run next := by
  cases result with
  | error => cases h
  | ok name =>
    cases h
    apply silent_remember

theorem reportCall_ok (h : run.reportCall n = .ok next) :
    next = run ∨ (run.phase = some .review
      ∧ next = { run with errors := run.errors.push (run.report SeedData.message n) }) := by
  unfold reportCall at h
  cases hinserts : SeedData.insertsRecord run.newVariables n with
  | error =>
    rw [hinserts] at h
    cases h
  | ok inserts =>
    rw [hinserts] at h
    cases inserts with
    | true => exact .inr (emit_eq_ok_iff.1 h)
    | false =>
      cases h
      exact .inl rfl

theorem silent_of_apply {handler : Handler} (h : run.apply handler n = .ok next)
    (hphase : run.phase ≠ some .review)
    (hbegin : ∀ actions, handler = .script actions → ∀ phase, .begin phase ∉ actions) :
    Silent run next
      ∧ ∀ actions, handler = .script actions → ∀ message, .emit message ∉ actions := by
  cases handler with
  | rememberAssignment =>
    exact ⟨silent_of_map_remember (orStop_eq_ok_iff.1 h), by simp⟩
  | rememberDefault =>
    exact ⟨silent_of_map_remember (orStop_eq_ok_iff.1 h), by simp⟩
  | reportCall =>
    rcases reportCall_ok (orStop_eq_ok_iff.1 h) with rfl | ⟨hreview, _⟩
    . exact ⟨.refl _, by simp⟩
    . exact absurd hreview hphase
  | script actions =>
    have := silent_of_script h hphase (hbegin actions rfl)
    refine ⟨this.1, ?_⟩
    intro other hother
    cases hother
    exact this.2

end RuleRun

theorem Rule.action?_eq_script_iff {rule : Rule} {phase : Phase} {kind : NodeKind}
    {actions : List Action} :
    rule.action? phase kind = some (.script actions) ↔
      ∃ script, rule = .scripted script
        ∧ script.handlers.lookup (phase.name ++ "_" ++ kind.name) = some actions := by
  cases rule with
  | isolateSeedData options =>
    simp only [action?]
    split <;> simp
  | scripted script => simp [action?]

theorem Rule.handler?_ok {rule : Rule} {phase : Phase} {kind : NodeKind} {handler : Handler}
    (h : rule.handler? phase kind = .ok (some handler)) :
    rule.action? phase kind = some handler := by
  unfold handler? at h
  split at h
  . cases h
  . split at h
    . simpa using h
    . cases h

theorem Rule.NeverBegins.begin_not_mem {rule : Rule} {phase : Phase} {kind : NodeKind}
    {actions : List Action} (h : rule.NeverBegins)
    (hhandler : rule.handler? phase kind = .ok (some (.script actions))) :
    ∀ phase, .begin phase ∉ actions := by
  obtain ⟨script, rfl, hlookup⟩ := action?_eq_script_iff.1 (handler?_ok hhandler)
  obtain ⟨before, after, hhandlers, _⟩ := List.lookup_eq_some_iff.1 hlookup
  apply h (phase.name ++ "_" ++ kind.name, actions)
  rw [hhandlers]
  simp

namespace RuleRun

theorem silent_of_handle {run next : RuleRun} {phase : Phase} {n : Node}
    (h : run.handle phase n = .ok next) (hphase : run.phase ≠ some .review)
    (hrule : run.rule.NeverBegins) :
    Silent run next ∧ ∀ actions, run.rule.handler? phase n.kind = .ok (some (.script actions)) →
      ∀ message, .emit message ∉ actions := by
  unfold handle at h
  split at h
  . cases h
  . next hhandler =>
    cases h
    exact ⟨.refl _, by simp [hhandler]⟩
  . next handler hhandler =>
    have hbegin : ∀ actions, handler = .script actions → ∀ phase, .begin phase ∉ actions := by
      rintro actions rfl
      exact hrule.begin_not_mem hhandler
    have := silent_of_apply h hphase hbegin
    refine ⟨this.1, ?_⟩
    intro actions hactions
    rw [hhandler] at hactions
    cases hactions
    exact this.2 actions rfl

end RuleRun

end MigrationLint
