import MigrationLint.Proofs.List
import MigrationLint.Proofs.Rule.Alone
import MigrationLint.Proofs.Rule.History

/-!
This module contains the interplay of the rules of an engine: there is none. A run of an engine ends
as the runs of its rules end alone, it returns what they emit in the order of the moments, and if
some of them fail, it fails as the one that fails first.
-/

namespace MigrationLint

theorem Moment.key_le_iff {m m' : Moment} :
    m.key ≤ m'.key ↔ m.phase.rank < m'.phase.rank ∨ m.phase.rank = m'.phase.rank
      ∧ (m.position < m'.position ∨ m.position = m'.position ∧ m.rule ≤ m'.rule) := by
  simp only [key, Prod.Lex.toLex_le_toLex]

namespace Engine

open RuleRun

variable {runs middle ended : List (RuleRun × ℕ)} {course first second : RuleRun → ℕ → Course}
  {emissions early late : List Emission} {error : RuleError} {P Q : Moment → Prop}

/--
Several runs that ended as they do alone, with their emissions merged in the order of the moments.
The runs stand with their positions, which are ascending.
-/
structure Merged (runs : List (RuleRun × ℕ)) (course : RuleRun → ℕ → Course)
    (ended : List (RuleRun × ℕ)) (emissions : List Emission) : Prop where
  sorted : emissions.Pairwise fun d e => d.moment.key ≤ e.moment.key
  owned : ∀ e ∈ emissions, ∃ r ∈ runs, e.moment.rule = r.2
  alone : List.Forall₂ (fun r last => last.2 = r.2
    ∧ course r.1 r.2 = .ok (last.1, emissions.filter (·.moment.rule = r.2))) runs ended

/--
A failure that comes first among those of several runs.
-/
def FailsFirst (runs : List (RuleRun × ℕ)) (course : RuleRun → ℕ → Course) (error : RuleError) :
    Prop :=
  ∃ r ∈ runs, ∃ moment, course r.1 r.2 = .error (moment, error)
    ∧ ∀ s ∈ runs, ∀ other e, course s.1 s.2 = .error (other, e) → moment.key ≤ other.key

theorem Merged.course_eq (h : Merged runs course ended emissions) {r : RuleRun × ℕ}
    (hr : r ∈ runs) :
    ∃ last, (last, r.2) ∈ ended
      ∧ course r.1 r.2 = .ok (last, emissions.filter (·.moment.rule = r.2)) := by
  obtain ⟨⟨last, position⟩, hlast, rfl, hcourse⟩ := exists_of_forall₂ h.alone hr
  exact ⟨last, hlast, hcourse⟩

theorem Merged.course_of_ended (h : Merged runs course ended emissions) {last : RuleRun × ℕ}
    (hlast : last ∈ ended) :
    ∃ run, (run, last.2) ∈ runs
      ∧ course run last.2 = .ok (last.1, emissions.filter (·.moment.rule = last.2)) := by
  obtain ⟨⟨run, position⟩, hrun, rfl, hcourse⟩ := exists_of_forall₂ h.alone.flip hlast
  exact ⟨run, hrun, hcourse⟩

theorem Merged.pairwise (h : Merged runs course ended emissions)
    (hruns : runs.Pairwise fun r s => r.2 < s.2) : ended.Pairwise fun r s => r.2 < s.2 := by
  have hpositions : ended.map (·.2) = runs.map (·.2) := by
    have halone := h.alone
    clear h hruns
    induction halone with
    | nil => rfl
    | cons hfirst _ ih => rw [List.map_cons, List.map_cons, ih, hfirst.1]
  rw [← List.pairwise_map] at hruns ⊢
  rw [hpositions]
  exact hruns

theorem Merged.within (h : Merged runs course ended emissions)
    (hcourse : ∀ run rule, (course run rule).Within P) : ∀ e ∈ emissions, P e.moment := by
  intro e he
  obtain ⟨r, hr, hrule⟩ := h.owned e he
  obtain ⟨last, _, hlast⟩ := h.course_eq hr
  have hwithin := hcourse r.1 r.2
  rw [hlast] at hwithin
  exact hwithin e (List.mem_filter.2 ⟨he, by simpa using hrule⟩)

/-!
A step on a node is a merge, since the rules handle it in the order of their positions.
-/

theorem filter_eq_self_of_rule {i : ℕ} (h : ∀ e ∈ emissions, e.moment.rule = i) :
    emissions.filter (·.moment.rule = i) = emissions :=
  List.filter_eq_self.2 fun e he => by simpa using h e he

theorem filter_eq_nil_of_rule {i : ℕ} (h : ∀ e ∈ emissions, e.moment.rule ≠ i) :
    emissions.filter (·.moment.rule = i) = [] :=
  List.filter_eq_nil_iff.2 fun e he => by simpa using h e he

theorem visitNode_cons_eq_error {phase : Phase} {n : Node} {run : RuleRun}
    {runs last : List RuleRun}
    (h : visitNode phase n (run :: runs) = .error (error, last)) :
    (∃ stopped, run.handle phase n = .error stopped ∧ stopped.error = error)
      ∨ ∃ next rest, run.handle phase n = .ok next
        ∧ visitNode phase n runs = .error (error, rest) := by
  unfold visitNode at h
  dsimp only at h
  split at h
  . next stopped hstopped =>
    cases h
    exact .inl ⟨stopped, hstopped, rfl⟩
  . next next hnext =>
    split at h
    . next rest hrest =>
      cases h
      exact .inr ⟨next, rest, hnext, hrest⟩
    . cases h

theorem merged_cons {r last : RuleRun × ℕ} (hlast : last.2 = r.2)
    (hr : course r.1 r.2 = .ok (last.1, early)) (hearly : ∀ e ∈ early, e.moment.rule = r.2)
    (h : Merged runs course ended late) (hruns : ∀ s ∈ runs, r.2 < s.2)
    (hsorted : (early ++ late).Pairwise fun d e => d.moment.key ≤ e.moment.key) :
    Merged (r :: runs) course (last :: ended) (early ++ late) := by
  refine ⟨hsorted, ?_, ?_⟩
  . intro e he
    rcases List.mem_append.1 he with he | he
    . exact ⟨r, List.mem_cons_self, hearly e he⟩
    . obtain ⟨s, hs, hrule⟩ := h.owned e he
      exact ⟨s, List.mem_cons_of_mem _ hs, hrule⟩
  . refine .cons ⟨hlast, ?_⟩ ?_
    . have hnone : late.filter (·.moment.rule = r.2) = [] := by
        apply filter_eq_nil_of_rule
        intro e he
        obtain ⟨s, hs, hrule⟩ := h.owned e he
        rw [hrule]
        exact (hruns s hs).ne'
      rw [List.filter_append, filter_eq_self_of_rule hearly, hnone, List.append_nil, hr]
    . refine ((List.forall₂_and_left _ _).2 ⟨hruns, h.alone⟩).imp ?_
      rintro s next ⟨hs, hposition, hnext⟩
      have hnone : early.filter (·.moment.rule = s.2) = [] := by
        apply filter_eq_nil_of_rule
        intro e he
        rw [hearly e he]
        exact hs.ne
      exact ⟨hposition, by rw [List.filter_append, hnone, List.nil_append, hnext]⟩

theorem within_visit_moment (phase : Phase) (position : ℕ) (n : Node) (run : RuleRun) (rule : ℕ) :
    (run.visit ⟨phase, position, rule⟩ n).Within
      fun m => m.phase = phase ∧ m.position = position := by
  refine (within_visit run ⟨phase, position, rule⟩ n).mono ?_
  rintro m rfl
  exact ⟨rfl, rfl⟩

theorem visit_eq_error {run : RuleRun} {moment other : Moment} {n : Node}
    (h : run.visit moment n = .error (other, error)) : other = moment := by
  have hwithin := within_visit run moment n
  rw [h] at hwithin
  exact hwithin

variable {phase : Phase} {position : ℕ} {n : Node}

theorem merged_of_visitNode (hruns : runs.Pairwise fun r s => r.2 < s.2) {next : List RuleRun}
    {emitted : List Diagnostic} (h : visitNode phase n (runs.map (·.1)) = .ok (next, emitted)) :
    ∃ ended emissions, next = ended.map (·.1) ∧ emitted = emissions.map (·.diagnostic)
      ∧ Merged runs (fun run rule => run.visit ⟨phase, position, rule⟩ n) ended emissions := by
  induction runs generalizing next emitted with
  | nil =>
    cases h
    exact ⟨[], [], rfl, rfl, .nil, by simp, .nil⟩
  | cons r runs ih =>
    obtain ⟨hfirst, hrest⟩ := List.pairwise_cons.1 hruns
    obtain ⟨run, rest, later, hrun, hlater, rfl, rfl⟩ := visitNode_cons_eq_ok h
    obtain ⟨ended, emissions, rfl, rfl, hmerged⟩ := ih hrest hlater
    let moment : Moment := ⟨phase, position, r.2⟩
    let early : List Emission := (run.errors.extract r.1.errors.size).toList.map (⟨moment, ·⟩)
    have hcourse : r.1.visit moment n = .ok (run, early) := by
      rw [visit, hrun]
    have hearly : ∀ e ∈ early, e.moment = moment := by
      have := within_visit r.1 moment n
      rw [hcourse] at this
      exact this
    have hlate := hmerged.within (within_visit_moment phase position n)
    refine ⟨(run, r.2) :: ended, early ++ emissions, rfl, ?_, ?_⟩
    . simp [early, Function.comp_def]
    . refine merged_cons rfl hcourse (fun e he => by rw [hearly e he]) hmerged hfirst ?_
      refine List.pairwise_append.2 ⟨?_, hmerged.sorted, ?_⟩
      . exact List.pairwise_of_forall_mem_list fun d hd e he => by rw [hearly d hd, hearly e he]
      . intro d hd e he
        obtain ⟨s, hs, hrule⟩ := hmerged.owned e he
        rw [hearly d hd, Moment.key_le_iff, (hlate e he).1, (hlate e he).2, hrule]
        exact .inr ⟨rfl, .inr ⟨rfl, (hfirst s hs).le⟩⟩

theorem failsFirst_of_visitNode (hruns : runs.Pairwise fun r s => r.2 < s.2) {last : List RuleRun}
    (h : visitNode phase n (runs.map (·.1)) = .error (error, last)) :
    FailsFirst runs (fun run rule => run.visit ⟨phase, position, rule⟩ n) error := by
  induction runs generalizing last with
  | nil => cases h
  | cons r runs ih =>
    obtain ⟨hfirst, hrest⟩ := List.pairwise_cons.1 hruns
    rcases visitNode_cons_eq_error h with ⟨stopped, hstopped, rfl⟩ | ⟨next, rest, hnext, hlater⟩
    . refine ⟨r, List.mem_cons_self, ⟨phase, position, r.2⟩, by simp [visit, hstopped], ?_⟩
      intro s hs other e herror
      rw [visit_eq_error herror, Moment.key_le_iff]
      rcases List.mem_cons.1 hs with rfl | hs
      . exact .inr ⟨rfl, .inr ⟨rfl, le_rfl⟩⟩
      . exact .inr ⟨rfl, .inr ⟨rfl, (hfirst s hs).le⟩⟩
    -- The first run goes on, so it is none of those that fail.
    . obtain ⟨s, hs, moment, hmoment, hleast⟩ := ih hrest hlater
      refine ⟨s, List.mem_cons_of_mem _ hs, moment, hmoment, ?_⟩
      intro t ht other e herror
      rcases List.mem_cons.1 ht with rfl | ht
      . simp [visit, hnext] at herror
      . exact hleast t ht other e herror

/-!
A merge may be followed by another one whose moments are later.
-/

def andThen (first second : RuleRun → ℕ → Course) (run : RuleRun) (rule : ℕ) : Course :=
  (first run rule).andThen (second · rule)

theorem Merged.andThen (h₁ : Merged runs first middle early) (h₂ : Merged middle second ended late)
    (hfirst : ∀ run rule, (first run rule).Within P)
    (hsecond : ∀ run rule, (second run rule).Within Q)
    (hPQ : ∀ m m', P m → Q m' → m.key ≤ m'.key) :
    Merged runs (Engine.andThen first second) ended (early ++ late) := by
  have hP := h₁.within hfirst
  have hQ := h₂.within hsecond
  refine ⟨?_, ?_, forall₂_trans ?_ h₁.alone h₂.alone⟩
  . exact List.pairwise_append.2 ⟨h₁.sorted, h₂.sorted,
      fun d hd e he => hPQ _ _ (hP d hd) (hQ e he)⟩
  . intro e he
    rcases List.mem_append.1 he with he | he
    . exact h₁.owned e he
    . obtain ⟨s, hs, hrule⟩ := h₂.owned e he
      obtain ⟨run, hrun, _⟩ := h₁.course_of_ended hs
      exact ⟨_, hrun, hrule⟩
  . rintro r s last ⟨hs, hr⟩ ⟨hlast, hcourse⟩
    refine ⟨hlast.trans hs, ?_⟩
    rw [Engine.andThen, hr, Course.andThen_ok, ← hs, hcourse, List.filter_append]
    rfl

theorem FailsFirst.andThen_left (h : FailsFirst runs first error)
    (hfirst : ∀ run rule, (first run rule).Within P)
    (hsecond : ∀ run rule, (second run rule).Within Q)
    (hPQ : ∀ m m', P m → Q m' → m.key ≤ m'.key) :
    FailsFirst runs (Engine.andThen first second) error := by
  obtain ⟨r, hr, moment, hmoment, hleast⟩ := h
  refine ⟨r, hr, moment, Course.andThen_eq_error_iff.2 (.inl hmoment), ?_⟩
  intro s hs other e herror
  rcases Course.andThen_eq_error_iff.1 herror with herror | ⟨run, _, _, herror⟩
  . exact hleast s hs other e herror
  . have hP := hfirst r.1 r.2
    have hQ := hsecond run s.2
    rw [hmoment] at hP
    rw [herror] at hQ
    exact hPQ moment other hP hQ

theorem FailsFirst.andThen_right (h₁ : Merged runs first middle early)
    (h₂ : FailsFirst middle second error) :
    FailsFirst runs (Engine.andThen first second) error := by
  obtain ⟨s, hs, moment, hmoment, hleast⟩ := h₂
  obtain ⟨run, hrun, hcourse⟩ := h₁.course_of_ended hs
  refine ⟨_, hrun, moment, Course.andThen_eq_error_iff.2 (.inr ⟨_, _, hcourse, hmoment⟩), ?_⟩
  intro t ht other e herror
  obtain ⟨next, hnext, hcourse⟩ := h₁.course_eq ht
  rcases Course.andThen_eq_error_iff.1 herror with herror | ⟨_, _, heq, herror⟩
  . rw [hcourse] at herror
    cases herror
  . rw [hcourse] at heq
    cases heq
    exact hleast _ hnext other e herror

/--
What an engine comes to, given the course of each of its runs: all end and are merged, or one of
those that fail comes first.
-/
def Agrees (runs : List (RuleRun × ℕ)) (course : RuleRun → ℕ → Course) (before : Array Diagnostic) :
    Except (RuleError × List RuleRun) Progress → Prop
  | .error failure => FailsFirst runs course failure.1
  | .ok last =>
    ∃ ended emissions, Merged runs course ended emissions ∧ last.runs = ended.map (·.1)
      ∧ last.emitted.toList = before.toList ++ emissions.map (·.diagnostic)

theorem Agrees.bind {before : Array Diagnostic}
    {outcome : Except (RuleError × List RuleRun) Progress}
    {next : Progress → Except (RuleError × List RuleRun) Progress}
    (h : Agrees runs first before outcome) (hruns : runs.Pairwise fun r s => r.2 < s.2)
    (hnext : ∀ middle emitted, middle.Pairwise (fun r s => r.2 < s.2) →
      Agrees middle second emitted (next ⟨middle.map (·.1), emitted⟩))
    (hfirst : ∀ run rule, (first run rule).Within P)
    (hsecond : ∀ run rule, (second run rule).Within Q)
    (hPQ : ∀ m m', P m → Q m' → m.key ≤ m'.key) :
    Agrees runs (Engine.andThen first second) before (outcome.bind next) := by
  cases outcome with
  | error failure => exact FailsFirst.andThen_left h hfirst hsecond hPQ
  | ok progress =>
    obtain ⟨runs, emitted⟩ := progress
    obtain ⟨middle, early, hmerged, rfl, hearly⟩ := h
    have hnext := hnext middle emitted (hmerged.pairwise hruns)
    show Agrees runs _ before (next ⟨middle.map (·.1), emitted⟩)
    cases hlast : next ⟨middle.map (·.1), emitted⟩ with
    | error failure =>
      rw [hlast] at hnext
      exact FailsFirst.andThen_right hmerged hnext
    | ok last =>
      rw [hlast] at hnext
      obtain ⟨ended, late, hlate, hended, hemitted⟩ := hnext
      refine ⟨ended, early ++ late, hmerged.andThen hlate hfirst hsecond hPQ, hended, ?_⟩
      rw [hemitted, hearly, List.map_append, List.append_assoc]

theorem agrees_visitNode (hruns : runs.Pairwise fun r s => r.2 < s.2) (before : Array Diagnostic)
    (phase : Phase) (position : ℕ) (n : Node) :
    Agrees runs (fun run rule => run.visit ⟨phase, position, rule⟩ n) before
      ((visitNode phase n (runs.map (·.1))).map fun (runs, emitted) =>
        ⟨runs, before.appendList emitted⟩) := by
  cases hnode : visitNode phase n (runs.map (·.1)) with
  | error failure => exact failsFirst_of_visitNode hruns hnode
  | ok result =>
    obtain ⟨next, emitted⟩ := result
    obtain ⟨ended, emissions, rfl, rfl, hmerged⟩ := merged_of_visitNode hruns hnode
    exact ⟨ended, emissions, hmerged, rfl, by simp⟩

theorem visitNodes_cons (phase : Phase) (progress : Progress) (n : Node) (ns : List Node) :
    visitNodes phase progress (n :: ns) =
      ((visitNode phase n progress.runs).map fun (runs, emitted) =>
        (⟨runs, progress.emitted.appendList emitted⟩ : Progress)).bind
          (visitNodes phase · ns) := by
  rw [visitNodes]
  cases visitNode phase n progress.runs <;> rfl

theorem agrees_visitNodes (hruns : runs.Pairwise fun r s => r.2 < s.2) (before : Array Diagnostic)
    (phase : Phase) (position : ℕ) (ns : List Node) :
    Agrees runs (fun run rule => run.walk phase rule position ns) before
      (visitNodes phase ⟨runs.map (·.1), before⟩ ns) := by
  induction ns generalizing runs before position with
  | nil =>
    refine ⟨runs, [], ⟨.nil, by simp, ?_⟩, rfl, by simp⟩
    exact List.forall₂_same.2 fun r _ => ⟨rfl, rfl⟩
  | cons n ns ih =>
    rw [visitNodes_cons]
    apply (agrees_visitNode hruns before phase position n).bind hruns
    . exact fun middle emitted hmiddle => ih hmiddle emitted (position + 1)
    . exact within_visit_moment phase position n
    . exact fun run rule => within_walk run phase rule (position + 1) ns
    . intro m m' hm hm'
      exact Moment.key_le_iff.2 (.inr ⟨by rw [hm.1, hm'.1], .inl (by omega)⟩)

theorem Agrees.of_map (f : RuleRun → RuleRun) {before : Array Diagnostic}
    {outcome : Except (RuleError × List RuleRun) Progress}
    (h : Agrees (runs.map fun r => (f r.1, r.2)) course before outcome) :
    Agrees runs (fun run rule => course (f run) rule) before outcome := by
  cases outcome with
  | error failure =>
    obtain ⟨_, hmem, moment, hmoment, hleast⟩ := h
    obtain ⟨r, hr, rfl⟩ := List.mem_map.1 hmem
    exact ⟨r, hr, moment, hmoment, fun s hs => hleast _ (List.mem_map_of_mem hs)⟩
  | ok last =>
    obtain ⟨ended, emissions, hmerged, hlast, hemitted⟩ := h
    refine ⟨ended, emissions, ⟨hmerged.sorted, ?_, List.forall₂_map_left_iff.1 hmerged.alone⟩,
      hlast, hemitted⟩
    intro e he
    obtain ⟨_, hmem, hrule⟩ := hmerged.owned e he
    obtain ⟨r, hr, rfl⟩ := List.mem_map.1 hmem
    exact ⟨r, hr, hrule⟩

theorem agrees_runPhase (hruns : runs.Pairwise fun r s => r.2 < s.2) (before : Array Diagnostic)
    (phase : Phase) (nodes : List Node) :
    Agrees runs (fun run rule => run.pass phase rule nodes) before
      (runPhase phase nodes ⟨runs.map (·.1), before⟩) := by
  have hbegun : (runs.map fun r => (r.1.begin (some phase), r.2)).Pairwise fun r s => r.2 < s.2 :=
    List.pairwise_map.2 hruns
  have hmap : (runs.map (·.1)).map (·.begin (some phase)) =
      (runs.map fun r => (r.1.begin (some phase), r.2)).map (·.1) := by
    simp
  have hwalk := agrees_visitNodes hbegun before phase 0 nodes
  rw [← hmap] at hwalk
  exact Agrees.of_map (·.begin (some phase)) hwalk

theorem agrees_passes (hruns : runs.Pairwise fun r s => r.2 < s.2) (nodes : List Node) :
    Agrees runs (fun run rule => run.alone rule nodes) #[] (passes nodes (runs.map (·.1))) := by
  have hpasses : passes nodes (runs.map (·.1)) =
      (runPhase .prepare nodes ⟨runs.map (·.1), #[]⟩).bind (runPhase .review nodes) := by
    unfold passes
    cases runPhase .prepare nodes ⟨runs.map (·.1), #[]⟩ <;> rfl
  rw [hpasses]
  apply (agrees_runPhase hruns #[] .prepare nodes).bind hruns
  . exact fun middle emitted hmiddle => agrees_runPhase hmiddle emitted .review nodes
  . exact fun run rule => within_pass run .prepare rule nodes
  . exact fun run rule => within_pass run .review rule nodes
  . intro m m' hm hm'
    exact Moment.key_le_iff.2 (.inl (by simp [hm, hm', Phase.rank]))

end Engine

end MigrationLint
