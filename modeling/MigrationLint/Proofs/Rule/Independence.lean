import MigrationLint.Proofs.Rule.Merge

/-!
This module contains the independence of the rules of an engine. A rule ends on a file as it does in
an engine of its own, whatever the other rules are, and what the engine returns is what its rules
emit, in the order of the phases, of the nodes and of the rules.
-/

namespace MigrationLint

/--
What becomes of a rule of an engine on a file. A rule that does not apply to the file does nothing.
-/
def Rule.course (rule : Rule) (file : WideText) (nodes : List Node) (position : ℕ) : Course :=
  if rule.appliesTo file then ({ rule } : RuleRun).alone position nodes else .ok ({ rule }, [])

theorem Rule.recorded_course (rule : Rule) (file : WideText) (nodes : List Node) (position : ℕ) :
    (rule.course file nodes position).Recorded nodes { rule } := by
  unfold course
  split
  . exact RuleRun.recorded_alone { rule } position nodes
  . exact ⟨rfl, rfl, by simp⟩

namespace Engine

variable {rules : List Rule} {file : WideText}

/--
The runs that take part, with the positions of their rules.
-/
def numbered (rules : List (Rule × ℕ)) (file : WideText) : List (RuleRun × ℕ) :=
  (rules.filter (·.1.appliesTo file)).map fun r => ({ rule := r.1 }, r.2)

theorem numbered_pairwise (rules : List Rule) (start : ℕ) (file : WideText) :
    (numbered (rules.zipIdx start) file).Pairwise fun r s => r.2 < s.2 :=
  List.pairwise_map.2 ((pairwise_zipIdx rules start).filter _)

theorem numbered_map_fst (rules : List Rule) (start : ℕ) (file : WideText) :
    (numbered (rules.zipIdx start) file).map (·.1) = participants rules file := by
  unfold numbered participants
  rw [List.map_map]
  induction rules generalizing start with
  | nil => rfl
  | cons rule rules ih =>
    rw [List.zipIdx_cons]
    cases happlies : rule.appliesTo file with
    | true => simp [happlies, ih]
    | false => simp [happlies, ih]

theorem forall₂_rejoin {R : Rule × ℕ → RuleRun → Prop} {start : ℕ} {runs : List RuleRun}
    (hskip : ∀ r ∈ rules.zipIdx start, r.1.appliesTo file = false → R r { rule := r.1 })
    (h : List.Forall₂ R ((rules.zipIdx start).filter (·.1.appliesTo file)) runs) :
    List.Forall₂ R (rules.zipIdx start) (rejoin file rules runs) := by
  induction rules generalizing start runs with
  | nil => exact .nil
  | cons rule rules ih =>
    rw [List.zipIdx_cons] at h hskip ⊢
    have ih {runs : List RuleRun} := @ih (start + 1) runs
      fun r hr => hskip r (List.mem_cons_of_mem _ hr)
    cases happlies : rule.appliesTo file with
    | true =>
      simp only [List.filter_cons, happlies, ↓reduceIte] at h
      cases h with
      | cons hrun hruns =>
        rw [rejoin, if_pos happlies]
        exact .cons hrun (ih hruns)
    | false =>
      simp only [List.filter_cons, happlies, Bool.false_eq_true, ↓reduceIte] at h
      have hrule := hskip _ List.mem_cons_self happlies
      cases runs with
      | nil => exact .cons hrule (ih h)
      | cons run runs =>
        rw [rejoin, if_neg (by simp [happlies])]
        exact .cons hrule (ih h)

theorem course_of_applies {rule : Rule} {nodes : List Node} {position : ℕ}
    (h : rule.appliesTo file) :
    rule.course file nodes position = ({ rule } : RuleRun).alone position nodes :=
  if_pos h

theorem course_of_not_applies {rule : Rule} {nodes : List Node} {position : ℕ}
    (h : rule.appliesTo file = false) :
    rule.course file nodes position = .ok ({ rule }, []) :=
  if_neg (by simp [h])

theorem position_unique {r s : Rule × ℕ} {start : ℕ} (hr : r ∈ rules.zipIdx start)
    (hs : s ∈ rules.zipIdx start) (h : r.2 = s.2) : r = s := by
  rw [List.mem_zipIdx_iff_le_and_getElem?_sub] at hr hs
  have hrule := hr.2
  rw [h, hs.2] at hrule
  exact Prod.ext (Option.some.inj hrule).symm h

theorem agrees_participants (rules : List Rule) (start : ℕ) (file : WideText) (nodes : List Node) :
    Agrees (numbered (rules.zipIdx start) file) (fun run rule => run.alone rule nodes) #[]
      (passes nodes (participants rules file)) := by
  have hagrees := agrees_passes (numbered_pairwise rules start file) nodes
  rw [numbered_map_fst] at hagrees
  exact hagrees

theorem mem_numbered {r : RuleRun × ℕ} {numberedRules : List (Rule × ℕ)} :
    r ∈ numbered numberedRules file ↔
      ∃ s ∈ numberedRules, s.1.appliesTo file ∧ r = ({ rule := s.1 }, s.2) := by
  rw [numbered, List.mem_map]
  constructor
  . rintro ⟨s, hs, rfl⟩
    exact ⟨s, (List.mem_filter.1 hs).1, (List.mem_filter.1 hs).2, rfl⟩
  . rintro ⟨s, hs, happlies, rfl⟩
    exact ⟨s, List.mem_filter.2 ⟨hs, happlies⟩, rfl⟩

/--
A run that fails has the error of a course that comes first.
-/
theorem leastError_of_run {engine : Engine} {root : Node} {error : RuleError}
    (h : (engine.run (some root) file).outcome = .error error) (start : ℕ) :
    let rules := engine.rules.zipIdx start
    ∃ r ∈ rules, ∃ moment, r.1.course file root.nodes r.2 = .error (moment, error)
      ∧ ∀ s ∈ rules, ∀ other e, s.1.course file root.nodes s.2 = .error (other, e) →
        moment.key ≤ other.key := by
  intro rules
  obtain ⟨runs, hpasses⟩ := run_eq_error h
  have hagrees := agrees_participants engine.rules start file root.nodes
  rw [hpasses] at hagrees
  obtain ⟨_, hmem, moment, hmoment, hleast⟩ := hagrees
  obtain ⟨r, hr, happlies, rfl⟩ := mem_numbered.1 hmem
  refine ⟨r, hr, moment, (course_of_applies happlies).trans hmoment, ?_⟩
  intro s hs other e herror
  cases happlies : s.1.appliesTo file with
  | true =>
    rw [course_of_applies happlies] at herror
    exact hleast _ (mem_numbered.2 ⟨s, hs, happlies, rfl⟩) other e herror
  | false =>
    rw [course_of_not_applies happlies] at herror
    cases herror

/--
A run that succeeds returns the emissions of the courses in the order of their moments.
-/
theorem emissions_of_run {engine : Engine} {root : Node} {diagnostics : List Diagnostic}
    (h : (engine.run (some root) file).outcome = .ok diagnostics) (start : ℕ) :
    let rules := engine.rules.zipIdx start
    ∃ emissions : List Emission, diagnostics = emissions.map (·.diagnostic)
      ∧ emissions.Pairwise (fun d e => d.moment.key ≤ e.moment.key)
      ∧ (∀ e ∈ emissions, ∃ r ∈ rules, e.moment.rule = r.2)
      ∧ List.Forall₂ (fun r run => r.1.course file root.nodes r.2 =
          .ok (run, emissions.filter (·.moment.rule = r.2))) rules
        (engine.run (some root) file).runs := by
  intro rules
  obtain ⟨last, hpasses, rfl, hruns⟩ := run_eq_ok h
  have hagrees := agrees_participants engine.rules start file root.nodes
  rw [hpasses] at hagrees
  obtain ⟨ended, emissions, hmerged, hended, hemitted⟩ := hagrees
  have howned : ∀ e ∈ emissions, ∃ r ∈ rules, r.1.appliesTo file ∧ e.moment.rule = r.2 := by
    intro e he
    obtain ⟨_, hmem, hrule⟩ := hmerged.owned e he
    obtain ⟨r, hr, happlies, rfl⟩ := mem_numbered.1 hmem
    exact ⟨r, hr, happlies, hrule⟩
  rw [hruns, hended]
  refine ⟨emissions, by simpa using hemitted, hmerged.sorted, ?_, forall₂_rejoin ?_ ?_⟩
  . intro e he
    obtain ⟨r, hr, _, hrule⟩ := howned e he
    exact ⟨r, hr, hrule⟩
  . intro r hr happlies
    have hnone : emissions.filter (·.moment.rule = r.2) = [] := by
      apply filter_eq_nil_of_rule
      intro e he hposition
      obtain ⟨s, hs, hother, hrule⟩ := howned e he
      rw [position_unique hr hs (by rw [← hposition, hrule]), hother] at happlies
      cases happlies
    rw [course_of_not_applies happlies, hnone]
  . rw [List.forall₂_map_right_iff]
    have happlies : ∀ r ∈ rules.filter (·.1.appliesTo file), r.1.appliesTo file :=
      fun r hr => (List.mem_filter.1 hr).2
    have halone := List.forall₂_map_left_iff.1 hmerged.alone
    refine ((List.forall₂_and_left _ _).2 ⟨happlies, halone⟩).imp ?_
    intro r last h
    exact (course_of_applies h.1).trans h.2.2

def single (rule : Rule) (root : Node) (file : WideText) : Result :=
  ({ rules := [rule] } : Engine).run (some root) file

/--
An engine with a single rule follows the course of the rule, which may stand at any position.
-/
theorem single_eq (rule : Rule) (root : Node) (file : WideText) (position : ℕ) :
    match rule.course file root.nodes position with
    | .error (_, error) => (single rule root file).outcome = .error error
    | .ok (run, emissions) =>
      (single rule root file).outcome = .ok (emissions.map (·.diagnostic))
        ∧ (single rule root file).runs = [run] := by
  cases houtcome : (single rule root file).outcome with
  | error error =>
    obtain ⟨r, hr, moment, hmoment, _⟩ := leastError_of_run houtcome position
    cases List.mem_singleton.1 hr
    rw [hmoment]
  | ok diagnostics =>
    obtain ⟨emissions, hdiagnostics, _, howned, hcourse⟩ := emissions_of_run houtcome position
    have hrule : ∀ e ∈ emissions, e.moment.rule = position := by simpa using howned
    obtain ⟨run, rest, hrun, hrest, hruns⟩ := List.forall₂_cons_left_iff.1 hcourse
    cases hrest
    rw [hrun, filter_eq_self_of_rule hrule]
    exact ⟨by rw [hdiagnostics], hruns⟩

theorem single_of_course_ok {rule : Rule} {root : Node} {position : ℕ} {run : RuleRun}
    {emissions : List Emission} (h : rule.course file root.nodes position = .ok (run, emissions)) :
    (single rule root file).outcome = .ok (emissions.map (·.diagnostic))
      ∧ (single rule root file).runs = [run] := by
  have hsingle := single_eq rule root file position
  rw [h] at hsingle
  exact hsingle

theorem single_of_course_error {rule : Rule} {root : Node} {position : ℕ} {moment : Moment}
    {error : RuleError} (h : rule.course file root.nodes position = .error (moment, error)) :
    (single rule root file).outcome = .error error := by
  have hsingle := single_eq rule root file position
  rw [h] at hsingle
  exact hsingle

theorem runs_eq_flatMap {root : Node} {numbered : List (Rule × ℕ)} {runs : List RuleRun}
    {emissions : List Emission}
    (h : List.Forall₂ (fun r run => r.1.course file root.nodes r.2 =
      .ok (run, emissions.filter (·.moment.rule = r.2))) numbered runs) :
    runs = (numbered.map (·.1)).flatMap fun rule => (single rule root file).runs := by
  induction h with
  | nil => rfl
  | cons hrun _ ih => rw [List.map_cons, List.flatMap_cons, ← ih, (single_of_course_ok hrun).2]; rfl

/--
The emissions of the rules of an engine, one after the other in the order of their moments. Those of
a rule are what it emits in an engine of its own, and its diagnostics.
-/
structure Interleaved (engine : Engine) (root : Node) (file : WideText) (runs : List RuleRun)
    (emissions : List Emission) : Prop where
  sorted : emissions.Pairwise fun d e => d.moment.key ≤ e.moment.key
  owned : ∀ e ∈ emissions, e.moment.rule < engine.rules.length
  own : ∀ position rule, engine.rules[position]? = some rule →
    let own := emissions.filter (·.moment.rule = position)
    ∃ run, runs[position]? = some run
      ∧ rule.course file root.nodes position = .ok (run, own)
      ∧ own.map (·.diagnostic) = run.errors.toList
      ∧ (single rule root file).runs = [run]
      ∧ (single rule root file).outcome = .ok (own.map (·.diagnostic))

/--
The error of a rule that fails in an engine of its own, at the first moment at which one does.
-/
def FirstError (engine : Engine) (root : Node) (file : WideText) (error : RuleError) : Prop :=
  ∃ position rule moment, engine.rules[position]? = some rule
    ∧ rule.course file root.nodes position = .error (moment, error)
    ∧ (single rule root file).outcome = .error error
    ∧ ∀ (other : ℕ) (r : Rule) (m : Moment) (e : RuleError), engine.rules[other]? = some r →
        r.course file root.nodes other = .error (m, e) → moment.key ≤ m.key

theorem interleaved_of_run {engine : Engine} {root : Node} {diagnostics : List Diagnostic}
    (h : (engine.run (some root) file).outcome = .ok diagnostics) :
    (engine.run (some root) file).runs =
        engine.rules.flatMap (fun rule => (single rule root file).runs)
      ∧ ∃ emissions, diagnostics = emissions.map (·.diagnostic)
        ∧ engine.Interleaved root file (engine.run (some root) file).runs emissions := by
  obtain ⟨emissions, hdiagnostics, hsorted, howned, hcourse⟩ := emissions_of_run h 0
  refine ⟨?_, emissions, hdiagnostics, hsorted, ?_, ?_⟩
  . rw [runs_eq_flatMap hcourse, List.zipIdx_map_fst]
  . intro e he
    obtain ⟨r, hr, hrule⟩ := howned e he
    rw [List.mem_zipIdx_iff_getElem?] at hr
    rw [hrule]
    exact (List.getElem?_eq_some_iff.1 hr).1
  . intro position rule hrule own
    have hnumbered : engine.rules.zipIdx[position]? = some (rule, position) := by
      simp [hrule]
    obtain ⟨run, hrun, hown⟩ := getElem?_of_forall₂ hcourse hnumbered
    have hrecorded := rule.recorded_course file root.nodes position
    rw [hown] at hrecorded
    obtain ⟨houtcome, hruns⟩ := single_of_course_ok hown
    exact ⟨run, hrun, hown, hrecorded.2.1.symm, hruns, houtcome⟩

theorem firstError_of_run {engine : Engine} {root : Node} {error : RuleError}
    (h : (engine.run (some root) file).outcome = .error error) :
    engine.FirstError root file error := by
  obtain ⟨r, hr, moment, hmoment, hleast⟩ := leastError_of_run h 0
  rw [List.mem_zipIdx_iff_getElem?] at hr
  refine ⟨r.2, r.1, moment, hr, hmoment, single_of_course_error hmoment, ?_⟩
  intro other s m e hs herror
  exact hleast (s, other) (List.mem_zipIdx_iff_getElem?.2 hs) m e herror

theorem run_succeeds_iff (engine : Engine) (root : Node) (file : WideText) :
    (∃ diagnostics, (engine.run (some root) file).outcome = .ok diagnostics)
      ↔ ∀ rule ∈ engine.rules,
        ∃ diagnostics, (single rule root file).outcome = .ok diagnostics := by
  constructor
  . rintro ⟨diagnostics, h⟩ rule hrule
    obtain ⟨_, emissions, _, hinterleaved⟩ := interleaved_of_run h
    obtain ⟨position, hposition⟩ := List.getElem?_of_mem hrule
    obtain ⟨_, _, _, _, _, houtcome⟩ := hinterleaved.own position rule hposition
    exact ⟨_, houtcome⟩
  . intro h
    cases houtcome : (engine.run (some root) file).outcome with
    | ok diagnostics => exact ⟨diagnostics, rfl⟩
    | error error =>
      obtain ⟨position, rule, _, hrule, _, herror, _⟩ := firstError_of_run houtcome
      obtain ⟨diagnostics, hok⟩ := h rule (List.mem_of_getElem? hrule)
      rw [herror] at hok
      cases hok

/--
The rules of an engine do not interfere. A run succeeds exactly if every rule does so in an engine
of its own; then the rules end as they do there, and the run returns what they emit, in the order of
the phases, of the nodes and of the rules. A run that fails has the error that comes first.
-/
theorem run_independent (engine : Engine) (root : Node) (file : WideText) :
    let result := engine.run (some root) file
    ((∃ diagnostics, result.outcome = .ok diagnostics)
      ↔ ∀ rule ∈ engine.rules, ∃ diagnostics, (single rule root file).outcome = .ok diagnostics)
    ∧ (∀ diagnostics, result.outcome = .ok diagnostics →
        result.runs = engine.rules.flatMap (fun rule => (single rule root file).runs)
        ∧ ∃ emissions, diagnostics = emissions.map (·.diagnostic)
          ∧ engine.Interleaved root file result.runs emissions)
    ∧ (∀ error, result.outcome = .error error → engine.FirstError root file error) :=
  ⟨run_succeeds_iff engine root file, fun _ => interleaved_of_run, fun _ => firstError_of_run⟩

def watchCalls : Rule :=
  .scripted ⟨"Watch", [.call], [], [("review_call", [.visit, .emit "seen"])]⟩

def failLate : Rule :=
  .scripted ⟨"Late", [.call], [], [("review_call", [.emit "late", .role "value"])]⟩

def failEarly : Rule :=
  .scripted ⟨"Early", [.localVar], [], [("prepare_lvar", [.role "value"])]⟩

def createTwice : Node :=
  .mk .program ⟨"db/migrate/1.rb", 1⟩ "create; role.create" []
    [.mk .call ⟨"db/migrate/1.rb", 1⟩ "create" [("message", .text "create")] [],
     .mk .call ⟨"db/migrate/1.rb", 2⟩ "role.create"
      [("subject", .child 0), ("message", .text "create")]
      [.mk .localVar ⟨"db/migrate/1.rb", 2⟩ "role" [] []]]

theorem run_watchCalls :
    let file := "db/migrate/1.rb"
    let seen (line : Int) : Diagnostic := ⟨"Watch", "seen", ⟨file, line⟩⟩
    let seed (line : Int) : Diagnostic :=
      ⟨"IsolateSeedDataCheck", "isolate seed data", ⟨file, line⟩⟩
    let engine : Engine := { rules := [watchCalls, .isolateSeedData []] }
    let broken : Engine := { rules := [watchCalls, failLate, failEarly] }
    (engine.run (some createTwice) file).outcome = .ok [seen 1, seed 1, seen 2, seed 2]
      ∧ (∃ emissions, [seen 1, seed 1, seen 2, seed 2] = emissions.map (·.diagnostic)
        ∧ engine.Interleaved createTwice file (engine.run (some createTwice) file).runs emissions)
      ∧ (single watchCalls createTwice file).outcome = .ok [seen 1, seen 2]
      ∧ (broken.run (some createTwice) file).outcome = .error (.foreignRole ⟨.localVar, "value"⟩)
      ∧ (single failLate createTwice file).outcome = .error (.foreignRole ⟨.call, "value"⟩)
      ∧ broken.FirstError createTwice file (.foreignRole ⟨.localVar, "value"⟩) := by
  intro file seen seed engine broken
  have hruns : participants engine.rules file =
      [{ rule := watchCalls }, { rule := .isolateSeedData [] }] := by
    have hwatch : watchCalls.appliesTo file := by decide
    have hseed : (Rule.isolateSeedData []).appliesTo file := by decide
    simp [participants, engine, hwatch, hseed]
  have hmerged : (engine.run (some createTwice) file).outcome =
      .ok [seen 1, seed 1, seen 2, seed 2] := by
    have hrun := run_some engine createTwice file
    rw [hruns] at hrun
    exact hrun.1
  have hbroken : (broken.run (some createTwice) file).outcome =
      .error (.foreignRole ⟨.localVar, "value"⟩) := (run_some broken createTwice file).1
  refine ⟨hmerged, ?_, ?_, hbroken, ?_, ?_⟩
  . exact ((run_independent engine createTwice file).2.1 _ hmerged).2
  . exact (run_some { rules := [watchCalls] } createTwice file).1
  . exact (run_some { rules := [failLate] } createTwice file).1
  . exact (run_independent broken createTwice file).2.2 _ hbroken

end Engine

end MigrationLint
