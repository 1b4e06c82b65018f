import MigrationLint.Proofs.List
import MigrationLint.Proofs.Rule.Handle

/-!
This module contains what becomes of a run of a rule that may be called in any order: it is told to
begin phases and to emit diagnostics, and its handlers work on any nodes, in any phase, and whether
or not earlier calls have failed. Calls and handlers come to requests, to begin a phase or to emit a
diagnostic. A run holds the diagnostics that were requested while the review phase was the one begun
last, and a request for a diagnostic at any other time stops the run and changes nothing.
-/

namespace MigrationLint

namespace RuleRun

/--
A call to a run. A handler is called by its phase and its kind, and the node may be of another kind.
-/
inductive Call where
  | begin (phase : Option Phase)
  | emit (message : String) (node : Node)
  | handle (phase : Phase) (kind : NodeKind) (node : Node)

def call (run : RuleRun) : Call → Except Stopped RuleRun
  | .begin phase => .ok (run.begin phase)
  | .emit message n => run.orStop (run.emit message n)
  | .handle phase kind n =>
    match run.rule.handler? phase kind with
    | .error error => .error ⟨error, run⟩
    | .ok none => .ok run
    | .ok (some handler) => run.apply handler n

/--
Get the run that is left behind, also if it was stopped.
-/
def left : Except Stopped RuleRun → RuleRun
  | .ok run => run
  | .error stopped => stopped.run

def after (run : RuleRun) (calls : List Call) : RuleRun :=
  calls.foldl (fun run c => left (run.call c)) run

/--
What calls and handlers ask of a run.
-/
inductive Request where
  | begin (phase : Option Phase)
  | emit (message : String) (node : Node)

/--
A request, and the run as it is when it is asked.
-/
structure Asked where
  run : RuleRun
  request : Request

def request? (n : Node) : Action → Option Request
  | .begin phase => some (.begin phase)
  | .emit message => some (.emit message n)
  | .visit | .role _ => none

/--
List what is asked after a step; a step that stops the run is the last one.
-/
def askedAfter (later : RuleRun → List Asked) : Except Stopped RuleRun → List Asked
  | .ok next => later next
  | .error _ => []

def askedByScript (n : Node) (run : RuleRun) : List Action → List Asked
  | [] => []
  | action :: actions =>
    ((request? n action).map (Asked.mk run)).toList ++
      askedAfter (fun next => askedByScript n next actions) (act n run action)

def askedBy (run : RuleRun) (handler : Handler) (n : Node) : List Asked :=
  match handler with
  | .rememberAssignment | .rememberDefault => []
  | .reportCall =>
    match SeedData.insertsRecord run.newVariables n with
    | .ok true => [⟨run, .emit SeedData.message n⟩]
    | _ => []
  | .script actions => askedByScript n run actions

/--
List what a call asks of a run, its own request or those of the handler that it calls.
-/
def asked (run : RuleRun) : Call → List Asked
  | .begin phase => [⟨run, .begin phase⟩]
  | .emit message n => [⟨run, .emit message n⟩]
  | .handle phase kind n =>
    match run.rule.handler? phase kind with
    | .ok (some handler) => run.askedBy handler n
    | _ => []

def history (run : RuleRun) : List Call → List Asked
  | [] => []
  | c :: cs => run.asked c ++ (left (run.call c)).history cs

/--
Get the phase that was begun last.
-/
def latest (phase : Option Phase) : List Request → Option Phase
  | [] => phase
  | .begin phase :: requests => latest phase requests
  | .emit _ _ :: requests => latest phase requests

/--
List the diagnostics that are requested of a rule in the review phase.
-/
def reviewed (rule : Rule) (phase : Option Phase) : List Request → List Diagnostic
  | [] => []
  | .begin phase :: requests => reviewed rule phase requests
  | .emit message n :: requests =>
    if phase = some .review then
      ⟨rule.identifier, message, n.location⟩ :: reviewed rule phase requests
    else reviewed rule phase requests

theorem latest_append (phase : Option Phase) (early late : List Request) :
    latest phase (early ++ late) = latest (latest phase early) late := by
  induction early generalizing phase with
  | nil => rfl
  | cons request early ih => cases request <;> exact ih _

theorem reviewed_append (rule : Rule) (phase : Option Phase) (early late : List Request) :
    reviewed rule phase (early ++ late) =
      reviewed rule phase early ++ reviewed rule (latest phase early) late := by
  induction early generalizing phase with
  | nil => rfl
  | cons request early ih =>
    cases request with
    | begin phase => exact ih phase
    | emit message n =>
      simp only [List.cons_append, reviewed, latest, ih]
      split <;> rfl

variable {run next : RuleRun} {n : Node}

/--
A run that went on as it was requested to.
-/
structure Follows (run : RuleRun) (requests : List Request) (next : RuleRun) : Prop where
  rule : next.rule = run.rule
  phase : next.phase = latest run.phase requests
  errors : next.errors.toList = run.errors.toList ++ reviewed run.rule run.phase requests

theorem Follows.refl (run : RuleRun) : Follows run [] run :=
  ⟨rfl, rfl, by simp [reviewed]⟩

theorem Follows.of_silent (h : Silent run next) : Follows run [] next :=
  ⟨h.rule, h.phase, by simp [h.errors, reviewed]⟩

theorem Follows.trans {middle : RuleRun} {early late : List Request}
    (h₁ : Follows run early middle) (h₂ : Follows middle late next) :
    Follows run (early ++ late) next := by
  refine ⟨h₂.rule.trans h₁.rule, ?_, ?_⟩
  . rw [h₂.phase, h₁.phase, latest_append]
  . rw [h₂.errors, h₁.errors, h₁.rule, h₁.phase, reviewed_append, List.append_assoc]

theorem follows_begin (run : RuleRun) (phase : Option Phase) :
    Follows run [.begin phase] (run.begin phase) :=
  ⟨rfl, rfl, by simp [RuleRun.begin, reviewed]⟩

theorem follows_emit {message : String} (hphase : run.phase = some .review) :
    Follows run [.emit message n] { run with errors := run.errors.push (run.report message n) } :=
  ⟨rfl, rfl, by simp [reviewed, report, hphase]⟩

theorem follows_refused {message : String} (hphase : run.phase ≠ some .review) :
    Follows run [.emit message n] run :=
  ⟨rfl, rfl, by simp [reviewed, hphase]⟩

/--
How a run goes on that is asked for something: it follows the requests one after the other, and the
first diagnostic that is requested out of review stops it as it is then.
-/
structure Answers (run : RuleRun) (requests : List Asked) (outcome : Except Stopped RuleRun) :
    Prop where
  follows : Follows run (requests.map (·.request)) (left outcome)
  each : ∀ early asked late, requests = early ++ asked :: late →
    Follows run (early.map (·.request)) asked.run
      ∧ ∀ message m, asked.request = .emit message m → asked.run.phase ≠ some .review →
        late = [] ∧ outcome =
          .error ⟨.outsideReview asked.run.rule.identifier message asked.run.phase, asked.run⟩

namespace Answers

theorem nothing {outcome : Except Stopped RuleRun} (h : Silent run (left outcome)) :
    Answers run [] outcome :=
  ⟨.of_silent h, by simp⟩

theorem single {request : Request} {outcome : Except Stopped RuleRun}
    (hfollows : Follows run [request] (left outcome))
    (hrefused : ∀ message m, request = .emit message m → run.phase ≠ some .review →
      outcome = .error ⟨.outsideReview run.rule.identifier message run.phase, run⟩) :
    Answers run [⟨run, request⟩] outcome := by
  refine ⟨hfollows, ?_⟩
  intro early asked late hsplit
  obtain ⟨rfl, hasked⟩ | ⟨_, hnil⟩ := List.singleton_eq_append_iff.1 hsplit
  . cases hasked
    exact ⟨.refl run, fun message m hemit hphase => ⟨rfl, hrefused message m hemit hphase⟩⟩
  . cases hnil

/--
Requests are answered one after the other, as long as nothing stops the run.
-/
theorem bind {early : List Asked} {first : Except Stopped RuleRun} {later : RuleRun → List Asked}
    {second : RuleRun → Except Stopped RuleRun} (hfirst : Answers run early first)
    (hsecond : ∀ next, Answers next (later next) (second next)) :
    Answers run (early ++ askedAfter later first) (first.bind second) := by
  cases first with
  | error stopped =>
    rw [askedAfter, List.append_nil]
    exact hfirst
  | ok next =>
    have hsecond : Answers next (later next) (second next) := hsecond next
    refine ⟨?_, ?_⟩
    . rw [List.map_append]
      exact hfirst.follows.trans hsecond.follows
    . intro before asked after hsplit
      rcases append_eq_append_cons_iff.1 hsplit with ⟨between, rfl, rfl⟩ | ⟨between, rfl, hlater⟩
      . obtain ⟨hbefore, hrefused⟩ := hfirst.each before asked between rfl
        refine ⟨hbefore, ?_⟩
        intro message m hemit hphase
        cases (hrefused message m hemit hphase).2
      . obtain ⟨hbefore, hrefused⟩ := hsecond.each between asked after hlater
        rw [List.map_append]
        exact ⟨hfirst.follows.trans hbefore, hrefused⟩

end Answers

theorem answers_begin (run : RuleRun) (phase : Option Phase) :
    Answers run [⟨run, .begin phase⟩] (.ok (run.begin phase)) :=
  .single (follows_begin run phase) (by simp)

theorem answers_emit (run : RuleRun) (message : String) (n : Node) :
    Answers run [⟨run, .emit message n⟩] (run.orStop (run.emit message n)) := by
  by_cases hphase : run.phase = some .review
  . rw [emit_eq_ok_iff.2 ⟨hphase, rfl⟩]
    exact .single (follows_emit hphase) fun _ _ _ hother => absurd hphase hother
  . rw [emit, if_neg hphase]
    refine .single (follows_refused hphase) ?_
    intro other m hemit _
    cases hemit
    rfl

theorem answers_act (run : RuleRun) (n : Node) (action : Action) :
    Answers run ((request? n action).map (Asked.mk run)).toList (act n run action) := by
  cases action with
  | visit => exact .nothing ⟨rfl, rfl, rfl⟩
  | begin phase => exact answers_begin run phase
  | emit message => exact answers_emit run message n
  | role name =>
    apply Answers.nothing
    simp only [act]
    cases n.role name with
    | error error => exact .refl run
    | ok target => exact ⟨rfl, rfl, rfl⟩

theorem answers_script (run : RuleRun) (n : Node) (actions : List Action) :
    Answers run (askedByScript n run actions) (actions.foldlM (act n) run) := by
  induction actions generalizing run with
  | nil => exact .nothing (.refl run)
  | cons action actions ih => exact (answers_act run n action).bind ih

theorem silent_left_remember (run : RuleRun) (result : Except RuleError (Option String)) :
    Silent run (left (run.orStop (result.map run.remember))) := by
  cases result with
  | error error => exact .refl run
  | ok name => exact silent_remember run name

theorem answers_apply (run : RuleRun) (handler : Handler) (n : Node) :
    Answers run (run.askedBy handler n) (run.apply handler n) := by
  cases handler with
  | rememberAssignment => exact .nothing (silent_left_remember run _)
  | rememberDefault => exact .nothing (silent_left_remember run _)
  | script actions => exact answers_script run n actions
  | reportCall =>
    simp only [askedBy, apply, reportCall]
    cases SeedData.insertsRecord run.newVariables n with
    | error error => exact .nothing (.refl run)
    | ok inserts =>
      cases inserts with
      | true => exact answers_emit run SeedData.message n
      | false => exact .nothing (.refl run)

theorem answers_call (run : RuleRun) (c : Call) : Answers run (run.asked c) (run.call c) := by
  cases c with
  | begin phase => exact answers_begin run phase
  | emit message n => exact answers_emit run message n
  | handle phase kind n =>
    simp only [asked, call]
    cases run.rule.handler? phase kind with
    | error error => exact .nothing (.refl run)
    | ok handler =>
      cases handler with
      | none => exact .nothing (.refl run)
      | some handler => exact answers_apply run handler n

theorem follows_after (run : RuleRun) (calls : List Call) :
    Follows run ((run.history calls).map (·.request)) (run.after calls) := by
  induction calls generalizing run with
  | nil => exact .refl run
  | cons c calls ih =>
    rw [history, List.map_append]
    exact (answers_call run c).follows.trans (ih (left (run.call c)))

theorem after_append (run : RuleRun) (calls more : List Call) :
    run.after (calls ++ more) = (run.after calls).after more := by
  rw [after, List.foldl_append]
  rfl

/--
What a call does to a run of the rule on seed data. The names that the run remembers only grow, and
only by handlers of the first phase; a diagnostic comes only from the handler of calls or from
outside; and a handler that fails changes nothing.
-/
structure KeepsRecords (run : RuleRun) (c : Call) : Prop where
  grows : run.newVariables ⊆ (left (run.call c)).newVariables
  remembers : (left (run.call c)).newVariables ≠ run.newVariables → ∃ kind n,
    c = .handle .prepare kind n
  reports : (left (run.call c)).errors ≠ run.errors →
    (∃ n, c = .handle .review .call n) ∨ ∃ message n, c = .emit message n
  stops : ∀ phase kind n stopped, c = .handle phase kind n → run.call c = .error stopped →
    stopped.run = run

theorem subset_newVariables_remember (run : RuleRun) (result : Except RuleError (Option String)) :
    run.newVariables ⊆ (left (run.orStop (result.map run.remember))).newVariables := by
  cases result with
  | error error => exact List.Subset.refl _
  | ok name =>
    cases name with
    | none => exact List.Subset.refl _
    | some name => exact fun _ hname => List.mem_insert_of_mem hname

theorem newVariables_emit (run : RuleRun) (message : String) (n : Node) :
    (left (run.orStop (run.emit message n))).newVariables = run.newVariables := by
  unfold emit
  split <;> rfl

theorem newVariables_reportCall (run : RuleRun) (n : Node) :
    (left (run.orStop (run.reportCall n))).newVariables = run.newVariables := by
  cases hreport : run.reportCall n with
  | error error => rfl
  | ok next =>
    obtain rfl | ⟨_, rfl⟩ := reportCall_ok hreport
    . rfl
    . rfl

theorem handler?_seedData {options : Options} {phase : Phase} {kind : NodeKind} {handler : Handler}
    (h : (Rule.isolateSeedData options).handler? phase kind = .ok (some handler)) :
    (phase = .prepare ∧ (handler = .rememberAssignment ∨ handler = .rememberDefault))
      ∨ (phase = .review ∧ kind = .call ∧ handler = .reportCall) := by
  have haction := Rule.handler?_ok h
  simp only [Rule.action?] at haction
  split at haction <;> simp_all

theorem KeepsRecords.of_eq {c : Call} (h : left (run.call c) = run) : KeepsRecords run c := by
  refine ⟨?_, ?_, ?_, ?_⟩
  . rw [h]
    exact List.Subset.refl _
  . exact fun hne => absurd (congrArg newVariables h) hne
  . exact fun hne => absurd (congrArg errors h) hne
  . intro phase kind n stopped _ hstopped
    rw [hstopped] at h
    exact h

theorem stopped_of_orStop {α : Type} {result : Except RuleError α} {stopped : Stopped}
    (h : run.orStop result = .error stopped) : stopped.run = run := by
  cases result with
  | ok a => cases h
  | error error =>
    cases h
    rfl

theorem keepsRecords_remember {kind : NodeKind} {result : Except RuleError (Option String)}
    (h : run.call (.handle .prepare kind n) = run.orStop (result.map run.remember)) :
    KeepsRecords run (.handle .prepare kind n) := by
  refine ⟨?_, fun _ => ⟨kind, n, rfl⟩, ?_, ?_⟩
  . rw [h]
    exact subset_newVariables_remember run result
  . intro hne
    rw [h] at hne
    exact absurd (silent_left_remember run result).errors hne
  . intro phase kind n stopped _ hstopped
    rw [h] at hstopped
    exact stopped_of_orStop hstopped

theorem keepsRecords_reportCall
    (h : run.call (.handle .review .call n) = run.orStop (run.reportCall n)) :
    KeepsRecords run (.handle .review .call n) := by
  have hnames := newVariables_reportCall run n
  rw [← h] at hnames
  refine ⟨?_, fun hne => absurd hnames hne, fun _ => .inl ⟨n, rfl⟩, ?_⟩
  . rw [hnames]
    exact List.Subset.refl _
  . intro phase kind n stopped _ hstopped
    rw [h] at hstopped
    exact stopped_of_orStop hstopped

theorem keepsRecords_emit (run : RuleRun) (message : String) (n : Node) :
    KeepsRecords run (.emit message n) := by
  have hnames : (left (run.call (.emit message n))).newVariables = run.newVariables :=
    newVariables_emit run message n
  refine ⟨?_, fun hne => absurd hnames hne, fun _ => .inr ⟨message, n, rfl⟩, by simp⟩
  rw [hnames]
  exact List.Subset.refl _

theorem keepsRecords_begin (run : RuleRun) (phase : Option Phase) :
    KeepsRecords run (.begin phase) :=
  ⟨List.Subset.refl _, fun hne => absurd rfl hne, fun hne => absurd rfl hne, by simp⟩

theorem keepsRecords_call {options : Options} (hrule : run.rule = .isolateSeedData options)
    (c : Call) : KeepsRecords run c := by
  cases c with
  | begin phase => exact keepsRecords_begin run phase
  | emit message n => exact keepsRecords_emit run message n
  | handle phase kind n =>
    cases hhandler : run.rule.handler? phase kind with
    | error error => exact .of_eq (by simp [call, hhandler, left])
    | ok handler =>
      cases handler with
      | none => exact .of_eq (by simp [call, hhandler, left])
      | some handler =>
        have hcall : run.call (.handle phase kind n) = run.apply handler n := by
          simp [call, hhandler]
        rw [hrule] at hhandler
        obtain ⟨rfl, rfl | rfl⟩ | ⟨rfl, rfl, rfl⟩ := handler?_seedData hhandler
        . exact keepsRecords_remember hcall
        . exact keepsRecords_remember hcall
        . exact keepsRecords_reportCall hcall

/--
Any calls to a fresh run of a rule, in any order. The run is in the phase that was begun last, and
its diagnostics are those that were requested in the review phase, in their order; none is taken
back. A request for a diagnostic at any other time fails and leaves the run as it was. A run of the
rule on seed data keeps its records, moreover.
-/
theorem after_calls (rule : Rule) (calls : List Call) :
    let fresh : RuleRun := { rule }
    let run := fresh.after calls
    let requests := (fresh.history calls).map (·.request)
    run.phase = latest none requests
    ∧ run.errors.toList = reviewed rule none requests
    ∧ (∀ more, run.errors.toList <+: (fresh.after (calls ++ more)).errors.toList)
    ∧ (∀ c early asked late, run.asked c = early ++ asked :: late →
        asked.run.phase = latest none (requests ++ early.map (·.request))
        ∧ ∀ message n, asked.request = .emit message n → asked.run.phase ≠ some .review →
          late = [] ∧ run.call c =
            .error ⟨.outsideReview rule.identifier message asked.run.phase, asked.run⟩)
    ∧ (∀ options, rule = .isolateSeedData options → ∀ c, run.KeepsRecords c) := by
  intro fresh run requests
  have hrun : Follows fresh requests run := follows_after fresh calls
  refine ⟨hrun.phase, ?_, ?_, ?_, ?_⟩
  . rw [hrun.errors]
    rfl
  . intro more
    rw [after_append]
    have hmore := (follows_after run more).errors
    rw [hmore]
    exact List.prefix_append _ _
  . intro c early asked late hsplit
    obtain ⟨hbefore, hrefused⟩ := (answers_call run c).each early asked late hsplit
    have hasked := hrun.trans hbefore
    refine ⟨hasked.phase, ?_⟩
    intro message n hemit hphase
    obtain ⟨hlate, houtcome⟩ := hrefused message n hemit hphase
    rw [hasked.rule] at houtcome
    exact ⟨hlate, houtcome⟩
  . rintro options rfl c
    exact keepsRecords_call hrun.rule c

def assignRole : Node :=
  .mk .localAssign ⟨"roles.rb", 1⟩ "role = Role.new"
    [("left_value", .child 0), ("right_value", .child 1)]
    [.mk .localVar ⟨"roles.rb", 1⟩ "role" [] [],
     .mk .call ⟨"roles.rb", 1⟩ "Role.new" [("message", .text "new")] []]

def saveRole : Node :=
  .mk .call ⟨"roles.rb", 2⟩ "role.save" [("subject", .child 0), ("message", .text "save")]
    [.mk .localVar ⟨"roles.rb", 2⟩ "role" [] []]

/--
A rule that reviews on its own for a while, and emits once more when it has ceased to.
-/
def reviewAtOnce : Rule :=
  .scripted ⟨"Hasty", [.call], [],
    [("prepare_call", [.begin (some .review), .emit "first", .begin none, .emit "second", .visit])]⟩

theorem after_saveRole :
    let run : RuleRun := { rule := .isolateSeedData [] }
    let calls : List Call :=
      [.handle .prepare .localAssign assignRole, .handle .review .call saveRole,
       .handle .prepare .operatorAssign assignRole, .begin (some .review),
       .handle .review .call saveRole, .emit "late" assignRole]
    let hasty : RuleRun := { rule := reviewAtOnce }
    (run.after calls).errors.toList =
        [⟨"IsolateSeedDataCheck", "isolate seed data", ⟨"roles.rb", 2⟩⟩,
         ⟨"IsolateSeedDataCheck", "late", ⟨"roles.rb", 1⟩⟩]
      ∧ (run.after (calls.take 2)).errors.toList <+: (run.after calls).errors.toList
      ∧ (run.after (calls.take 1)).call (.handle .review .call saveRole) =
          .error ⟨.outsideReview "IsolateSeedDataCheck" "isolate seed data" none,
            run.after (calls.take 1)⟩
      ∧ (run.after calls).KeepsRecords (.handle .review .call assignRole)
      ∧ (hasty.after [.handle .prepare .call saveRole]).errors.toList =
          [⟨"Hasty", "first", ⟨"roles.rb", 2⟩⟩]
      ∧ hasty.call (.handle .prepare .call saveRole) =
          .error ⟨.outsideReview "Hasty" "second" none,
            { hasty with errors := #[⟨"Hasty", "first", ⟨"roles.rb", 2⟩⟩] }⟩ := by
  intro run calls hasty
  let reviewing : RuleRun := { hasty with phase := some .review }
  let reported : RuleRun :=
    { reviewing with errors := #[⟨"Hasty", "first", ⟨"roles.rb", 2⟩⟩] }
  have hsave : (run.after (calls.take 1)).asked (.handle .review .call saveRole) =
      [] ++ ⟨run.after (calls.take 1), .emit SeedData.message saveRole⟩ :: [] := rfl
  have hscript : hasty.asked (.handle .prepare .call saveRole) =
      [⟨hasty, .begin (some .review)⟩, ⟨reviewing, .emit "first" saveRole⟩,
        ⟨reported, .begin none⟩] ++ ⟨reported.begin none, .emit "second" saveRole⟩ :: [] := rfl
  obtain ⟨_, herrors, _, _, hrecords⟩ := after_calls (.isolateSeedData []) calls
  obtain ⟨_, _, hprefix, _, _⟩ := after_calls (.isolateSeedData []) (calls.take 2)
  obtain ⟨_, _, _, hrefused, _⟩ := after_calls (.isolateSeedData []) (calls.take 1)
  obtain ⟨_, hfirst, _, _, _⟩ := after_calls reviewAtOnce [.handle .prepare .call saveRole]
  obtain ⟨_, _, _, hsecond, _⟩ := after_calls reviewAtOnce []
  refine ⟨herrors, hprefix (calls.drop 2), ?_, hrecords [] rfl _, hfirst, ?_⟩
  . exact ((hrefused _ _ _ _ hsave).2 _ _ rfl (by decide)).2
  . exact ((hsecond _ _ _ _ hscript).2 _ _ rfl (by decide)).2

end RuleRun

end MigrationLint
