import MigrationLint.Rule.Basic

/-!
This module contains what the paths of each category look like, as a split of a path into parts, and
the proof that the search for patterns finds such a split whenever there is one. A part before the
category may be any directories, so that a path keeps its categories below any directory.
-/

namespace MigrationLint

namespace Path

/--
The part of a path before one of its components.
-/
def OpensComponent (start : List Char) : Prop :=
  start = [] ∨ start.getLast? = some '/'

/--
The part of a path that is not looked at in its end.
-/
def EndsPath (rest : List Char) : Prop :=
  rest = [] ∨ rest = ['\n']

theorem opensComponent_iff {start : List Char} :
    OpensComponent start ↔ start = [] ∨ ∃ before, start = before ++ ['/'] := by
  rw [OpensComponent, List.getLast?_eq_some_iff]

theorem OpensComponent.append_left {start : List Char} (h : OpensComponent start)
    (before : List Char) : OpensComponent (before ++ '/' :: start) := by
  rw [opensComponent_iff] at h ⊢
  rcases h with rfl | ⟨middle, rfl⟩
  . exact .inr ⟨before, rfl⟩
  . exact .inr ⟨before ++ '/' :: middle, by simp⟩

theorem mem_afterSlashes {component path : List Char} :
    component ∈ afterSlashes path ↔ ∃ before, path = before ++ '/' :: component := by
  induction path with
  | nil => simp [afterSlashes]
  | cons c cs ih =>
    have hcons : component ∈ afterSlashes (c :: cs) ↔
        (c = '/' ∧ component = cs) ∨ component ∈ afterSlashes cs := by
      rw [afterSlashes]
      split
      . next hc => simp [hc]
      . next hc => simp [hc]
    rw [hcons, ih]
    constructor
    . rintro (⟨rfl, rfl⟩ | ⟨before, rfl⟩)
      . exact ⟨[], rfl⟩
      . exact ⟨c :: before, rfl⟩
    . rintro ⟨before, hpath⟩
      cases before with
      | nil =>
        cases hpath
        exact .inl ⟨rfl, rfl⟩
      | cons d before =>
        cases hpath
        exact .inr ⟨before, rfl⟩

theorem mem_components {component path : List Char} :
    component ∈ path :: afterSlashes path ↔
      ∃ start, OpensComponent start ∧ path = start ++ component := by
  rw [List.mem_cons, mem_afterSlashes]
  simp only [opensComponent_iff]
  constructor
  . rintro (rfl | ⟨before, rfl⟩)
    . exact ⟨[], .inl rfl, rfl⟩
    . exact ⟨before ++ ['/'], .inr ⟨before, rfl⟩, by simp⟩
  . rintro ⟨_, rfl | ⟨before, rfl⟩, rfl⟩
    . exact .inl rfl
    . exact .inr ⟨before, by simp⟩

theorem dropHead?_eq_some_iff {head cs rest : List Char} :
    dropHead? head cs = some rest ↔ cs = head ++ rest := by
  rw [dropHead?]
  constructor
  . intro h
    split at h
    . next hprefix =>
      cases h
      exact (List.prefix_iff_eq_append.1 (List.isPrefixOf_iff_prefix.1 hprefix)).symm
    . cases h
  . rintro rfl
    simp

theorem dropTail?_eq_some_iff {tail cs rest : List Char} :
    dropTail? tail cs = some rest ↔ cs = rest ++ tail := by
  rw [dropTail?]
  constructor
  . intro h
    split at h
    . next hsuffix =>
      cases h
      exact (List.suffix_iff_eq_append.1 (List.isSuffixOf_iff_suffix.1 hsuffix)).symm
    . cases h
  . rintro rfl
    simp

namespace Pattern

variable {p : Pattern} {cs : List Char}

/--
A head, a gap and a tail of a pattern, one after the other.
-/
def Spells (p : Pattern) (core : List Char) : Prop :=
  ∃ head ∈ p.heads, ∃ gap, p.isGap gap ∧ ∃ tail ∈ p.tails, core = head.toList ++ gap ++ tail.toList

theorem closes_iff :
    p.closes cs ↔ ∃ gap, p.isGap gap ∧ ∃ tail ∈ p.tails, cs = gap ++ tail.toList := by
  simp only [closes, List.any_eq_true, Option.any_eq_true, dropTail?_eq_some_iff]
  constructor
  . rintro ⟨tail, htail, gap, hcs, hgap⟩
    exact ⟨gap, hgap, tail, htail, hcs⟩
  . rintro ⟨gap, hgap, tail, htail, hcs⟩
    exact ⟨tail, htail, gap, hcs, hgap⟩

theorem continues_iff :
    p.continues cs ↔ ∃ before rest, p.closes before ∧ EndsPath rest ∧ cs = before ++ rest := by
  simp only [continues, Bool.or_eq_true, Option.any_eq_true, dropTail?_eq_some_iff]
  constructor
  . rintro (hcloses | ⟨before, rfl, hcloses⟩)
    . exact ⟨cs, [], hcloses, .inl rfl, (List.append_nil cs).symm⟩
    . exact ⟨before, ['\n'], hcloses, .inr rfl, rfl⟩
  . rintro ⟨before, _, hcloses, rfl | rfl, rfl⟩
    . rw [List.append_nil]
      exact .inl hcloses
    . exact .inr ⟨before, rfl, hcloses⟩

/--
The search finds what there is: a split of the path into any directories, a part that the pattern
spells, and an end.
-/
theorem matches_iff {path : List Char} :
    p.matches path ↔ ∃ start core rest, path = start ++ core ++ rest
      ∧ OpensComponent start ∧ EndsPath rest ∧ p.Spells core := by
  simp only [Pattern.matches, List.any_eq_true, mem_components, Option.any_eq_true,
    dropHead?_eq_some_iff, continues_iff, closes_iff]
  constructor
  . rintro ⟨_, ⟨start, hstart, rfl⟩, head, hhead, _, rfl, _, rest, ⟨gap, hgap, tail, htail, rfl⟩,
      hrest, rfl⟩
    exact ⟨start, head.toList ++ gap ++ tail.toList, rest, by simp, hstart, hrest,
      head, hhead, gap, hgap, tail, htail, rfl⟩
  . rintro ⟨start, _, rest, rfl, hstart, hrest, head, hhead, gap, hgap, tail, htail, rfl⟩
    exact ⟨head.toList ++ (gap ++ tail.toList ++ rest), ⟨start, hstart, by simp⟩, head, hhead, _,
      rfl, gap ++ tail.toList, rest, ⟨gap, hgap, tail, htail, rfl⟩, hrest, rfl⟩

end Pattern

/--
Heads and tails of the categories whose paths have a gap in between.
-/
inductive Layout : String → String → String → Prop where
  | migration : Layout "migration" "db/migrate/" ".rb"
  | model : Layout "model" "models/" ".rb"
  | mailer {head : String} (h : head ∈ ["models/", "mailers/"]) : Layout "mailer" head "mailer.rb"
  | controller : Layout "controller" "controllers/" ".rb"
  | helper : Layout "helper" "helpers/" ".rb"
  | view {tail : String} (h : tail ∈ [".erb", ".haml", ".slim", ".builder", ".rxml"]) :
    Layout "view" "views/" tail
  | routes : Layout "routes" "config/routes" ".rb"

/--
What a path of a category looks like from one of its components on.
-/
inductive Core : String → List Char → Prop where
  | spanning {category head tail : String} {gap : List Char} (h : Layout category head tail)
    (hgap : '\n' ∉ gap) : Core category (head.toList ++ gap ++ tail.toList)
  | schema : Core "schema" "db/schema.rb".toList
  | seed : Core "seed" "db/seeds.rb".toList

theorem layout_of_mem_patterns : ∀ p ∈ patterns, p.hasGap → ∀ head ∈ p.heads, ∀ tail ∈ p.tails,
    Layout p.category head tail := by
  simp [patterns, Layout.migration, Layout.model, Layout.mailer, Layout.controller, Layout.helper,
    Layout.view, Layout.routes]

theorem layout_iff {category head tail : String} :
    Layout category head tail ↔
      ∃ p ∈ patterns, p.hasGap ∧ p.category = category ∧ head ∈ p.heads ∧ tail ∈ p.tails := by
  constructor
  . intro h
    cases h <;> simp_all [patterns]
  . rintro ⟨p, hp, hspans, rfl, hhead, htail⟩
    exact layout_of_mem_patterns p hp hspans head hhead tail htail

theorem eq_of_mem_patterns {p : Pattern} (hp : p ∈ patterns) (hgap : p.hasGap = false) :
    p = ⟨"schema", ["db/schema"], false, [".rb"]⟩ ∨ p = ⟨"seed", ["db/seeds"], false, [".rb"]⟩ := by
  revert p
  decide

theorem core_iff {category : String} {core : List Char} :
    Core category core ↔ ∃ p ∈ patterns, p.category = category ∧ p.Spells core := by
  constructor
  . intro h
    cases h with
    | @spanning _ head tail gap h hgap =>
      obtain ⟨p, hp, hspans, hcategory, hhead, htail⟩ := layout_iff.1 h
      have hgap : p.isGap gap := by simp [Pattern.isGap, hspans, hgap]
      exact ⟨p, hp, hcategory, head, hhead, gap, hgap, tail, htail, rfl⟩
    | schema =>
      exact ⟨⟨"schema", ["db/schema"], false, [".rb"]⟩, by decide, rfl, "db/schema", by decide, [],
        rfl, ".rb", by decide, rfl⟩
    | seed =>
      exact ⟨⟨"seed", ["db/seeds"], false, [".rb"]⟩, by decide, rfl, "db/seeds", by decide, [],
        rfl, ".rb", by decide, rfl⟩
  . rintro ⟨p, hp, rfl, head, hhead, gap, hgap, tail, htail, rfl⟩
    cases hspans : p.hasGap with
    | true =>
      have hgap : '\n' ∉ gap := by simpa [Pattern.isGap, hspans] using hgap
      exact .spanning (layout_iff.2 ⟨p, hp, hspans, rfl, hhead, htail⟩) hgap
    | false =>
      have hempty : gap = [] := by simpa [Pattern.isGap, hspans] using hgap
      rw [hempty]
      rcases eq_of_mem_patterns hp hspans with rfl | rfl
      . cases List.mem_singleton.1 hhead
        cases List.mem_singleton.1 htail
        exact .schema
      . cases List.mem_singleton.1 hhead
        cases List.mem_singleton.1 htail
        exact .seed

theorem mem_classify {path : WideText} {category : String} :
    category ∈ classify path ↔ ∃ p ∈ patterns, p.category = category
      ∧ p.matches (normalize path.chars) := by
  simp only [classify, List.mem_map, List.mem_filter]
  constructor
  . rintro ⟨p, ⟨hp, hmatches⟩, hcategory⟩
    exact ⟨p, hp, hcategory, hmatches⟩
  . rintro ⟨p, hp, hcategory, hmatches⟩
    exact ⟨p, ⟨hp, hmatches⟩, hcategory⟩

theorem mem_classify_iff {path : WideText} {category : String} :
    category ∈ classify path ↔ ∃ start core rest, normalize path.chars = start ++ core ++ rest
      ∧ OpensComponent start ∧ EndsPath rest ∧ Core category core := by
  simp only [mem_classify, Pattern.matches_iff, core_iff]
  constructor
  . rintro ⟨p, hp, hcategory, start, core, rest, hpath, hstart, hrest, hspells⟩
    exact ⟨start, core, rest, hpath, hstart, hrest, p, hp, hcategory, hspells⟩
  . rintro ⟨start, core, rest, hpath, hstart, hrest, p, hp, hcategory, hspells⟩
    exact ⟨p, hp, hcategory, start, core, rest, hpath, hstart, hrest, hspells⟩

theorem classify_subset_append (directory path : WideText) :
    classify path ⊆ classify (directory ++ "/" ++ path) := by
  intro category h
  obtain ⟨start, core, rest, hpath, hstart, hrest, hcore⟩ := mem_classify_iff.1 h
  refine mem_classify_iff.2 ⟨normalize directory.chars ++ '/' :: start, core, rest, ?_,
    hstart.append_left _, hrest, hcore⟩
  calc normalize (directory ++ "/" ++ path).chars
    _ = normalize directory.chars ++ '/' :: normalize path.chars := by simp [normalize]
    _ = normalize directory.chars ++ '/' :: start ++ core ++ rest := by simp [hpath]

theorem matchesAny_append {directory path : WideText} {categories : List String}
    (h : matchesAny path categories) : matchesAny (directory ++ "/" ++ path) categories := by
  simp only [matchesAny, Bool.or_eq_true, List.any_eq_true] at h ⊢
  refine h.imp_right ?_
  rintro ⟨category, hcategory, hmem⟩
  exact ⟨category, classify_subset_append directory path hcategory, hmem⟩

/--
A path is of a category if it can be split into any directories, what paths of the category look
like, and an end. So it keeps its categories, and with them the rules that apply to it, below any
directory.
-/
theorem classify_cores (path : WideText) :
    (∀ category, category ∈ classify path ↔
      ∃ start core rest, normalize path.chars = start ++ core ++ rest
        ∧ OpensComponent start ∧ EndsPath rest ∧ Core category core)
    ∧ (∀ directory, classify path ⊆ classify (directory ++ "/" ++ path))
    ∧ ∀ directory (rule : Rule), rule.appliesTo path → rule.appliesTo (directory ++ "/" ++ path) :=
  ⟨fun _ => mem_classify_iff, fun directory => classify_subset_append directory path,
    fun _ _ happlies => matchesAny_append happlies⟩

theorem classify_userMailer :
    let path : WideText := "app\\models/user_mailer.rb\n"
    let rule : Rule := .scripted ⟨"Letters", [], ["mailer"], []⟩
    (∃ start core rest, normalize path.chars = start ++ core ++ rest
        ∧ OpensComponent start ∧ EndsPath rest ∧ Core "mailer" core)
      ∧ (¬ ∃ start core rest, normalize path.chars = start ++ core ++ rest
        ∧ OpensComponent start ∧ EndsPath rest ∧ Core "controller" core)
      ∧ classify ("/srv/site" ++ "/" ++ path) = ["model", "mailer"]
      ∧ rule.appliesTo ("/srv/site" ++ "/" ++ path) := by
  intro path rule
  obtain ⟨hcores, _, happlies⟩ := classify_cores path
  exact ⟨(hcores "mailer").1 (by decide), fun h => absurd ((hcores "controller").2 h) (by decide),
    by decide, happlies "/srv/site" rule (by decide)⟩

end Path

end MigrationLint
