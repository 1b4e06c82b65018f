import MigrationLint.Proofs.ParseTree.Faults
import MigrationLint.Proofs.ParseTree.Place

/-!
This module contains the outermost faults of a tree: the places of faults with no fault above them.
If the flags are as a parser sets them, the search for faults reaches exactly these places, although
it leaves out what stands below a fault and every row without the flag.
-/

namespace MigrationLint

namespace ParseTree

variable {t row : ParseTree} {above : List (ParseTree × Nat)} {p : Place}

theorem mem_placesFrom_iff :
    p ∈ placesFrom above t ↔
      p = ⟨t, above⟩ ∨ ∃ c i, t.children[i]? = some c ∧ p ∈ placesFrom ((t, i) :: above) c := by
  rw [placesFrom_eq, List.mem_cons, placesBelow_eq_flatMap, List.mem_flatMap]
  simp only [Prod.exists, List.mk_mem_zipIdx_iff_getElem?]

theorem subset_above_of_mem_placesFrom (t : ParseTree) (above : List (ParseTree × Nat))
    (h : p ∈ placesFrom above t) : above ⊆ p.above := by
  rcases mem_placesFrom_iff.1 h with rfl | ⟨c, i, hc, hp⟩
  . apply List.Subset.refl
  . have := subset_above_of_mem_placesFrom c _ hp
    exact (List.cons_subset.1 this).2
termination_by t.size
decreasing_by exact size_lt_of_mem_children (List.mem_of_getElem? hc)

/--
A fault with no fault above it.
-/
structure Place.IsOutermostFault (p : Place) : Prop where
  isFault : p.row.isFault
  below : ∀ entry ∈ p.above, ¬ entry.1.isFault

theorem Finds.hasError (h : t.FlagsFaults) (hfinds : t.Finds row) : t.label.hasError := by
  cases hfinds with
  | fault hfault => exact (h t t.mem_rows_self).2 (.inl hfault)
  | through _ hflag => exact hflag

theorem finds_iff_exists_child (h : t.FlagsFaults) (hfault : ¬ t.isFault) :
    t.Finds row ↔ ∃ c ∈ t.children, c.Finds row := by
  by_cases hflag : t.label.hasError
  . exact finds_of_flag hfault hflag
  . rw [iff_false_intro (not_finds hfault hflag), false_iff]
    -- A child that led to a fault would have the flag, and so would the tree.
    rintro ⟨c, hc, hfinds⟩
    apply hflag
    rw [h t t.mem_rows_self]
    exact .inr ⟨c, hc, hfinds.hasError (h.child hc)⟩

theorem finds_iff_exists_place (t : ParseTree) (above : List (ParseTree × Nat)) (h : t.FlagsFaults)
    (habove : ∀ entry ∈ above, ¬ entry.1.isFault) :
    t.Finds row ↔ ∃ p ∈ placesFrom above t, p.IsOutermostFault ∧ p.row = row := by
  simp only [mem_placesFrom_iff (t := t)]
  by_cases hfault : t.isFault
  . rw [finds_of_isFault hfault]
    constructor
    . rintro rfl
      exact ⟨_, .inl rfl, ⟨hfault, habove⟩, rfl⟩
    . rintro ⟨p, rfl | ⟨c, i, _, hp⟩, houtermost, rfl⟩
      . rfl
      . have := subset_above_of_mem_placesFrom c _ hp List.mem_cons_self
        exact absurd hfault (houtermost.below _ this)
  . have hbelow (i : Nat) : ∀ entry ∈ (t, i) :: above, ¬ entry.1.isFault := by
      rw [List.forall_mem_cons]
      exact ⟨hfault, habove⟩
    rw [finds_iff_exists_child h hfault]
    constructor
    . rintro ⟨c, hc, hfinds⟩
      obtain ⟨i, hi⟩ := List.mem_iff_getElem?.1 hc
      rw [finds_iff_exists_place c ((t, i) :: above) (h.child hc) (hbelow i)] at hfinds
      obtain ⟨p, hp, houtermost⟩ := hfinds
      exact ⟨p, .inr ⟨c, i, hi, hp⟩, houtermost⟩
    . rintro ⟨p, rfl | ⟨c, i, hi, hp⟩, houtermost, hrow⟩
      . exact absurd houtermost.isFault hfault
      . have hc := List.mem_of_getElem? hi
        refine ⟨c, hc, ?_⟩
        rw [finds_iff_exists_place c ((t, i) :: above) (h.child hc) (hbelow i)]
        exact ⟨p, hp, houtermost, hrow⟩
termination_by t.size
decreasing_by all_goals exact size_lt_of_mem_children hc

theorem mem_faultLines_iff (h : t.FlagsFaults) {line : Nat} :
    line ∈ t.faultLines ↔ ∃ row, t.Finds row ∧ row.line = line := by
  unfold faultLines
  split
  . simp [mem_go]
  . next hflag =>
    rw [iff_false_intro List.not_mem_nil, false_iff]
    rintro ⟨row, hfinds, _⟩
    exact hflag (hfinds.hasError h)

theorem hasError_iff_exists_fault (t : ParseTree) (h : t.FlagsFaults) :
    t.label.hasError ↔ ∃ row ∈ t.rows, row.isFault := by
  rw [h t t.mem_rows_self, rows_eq, rowsOf_eq_flatMap]
  simp only [List.mem_cons, List.mem_flatMap, or_and_right, exists_or, exists_eq_left]
  apply or_congr_right
  constructor
  . rintro ⟨c, hc, hflag⟩
    obtain ⟨row, hrow, hfault⟩ := (hasError_iff_exists_fault c (h.child hc)).1 hflag
    exact ⟨row, ⟨c, hc, hrow⟩, hfault⟩
  . rintro ⟨row, ⟨c, hc, hrow⟩, hfault⟩
    exact ⟨c, hc, (hasError_iff_exists_fault c (h.child hc)).2 ⟨row, hrow, hfault⟩⟩
termination_by t.size
decreasing_by all_goals exact size_lt_of_mem_children hc

/--
The lines of faults are those of the outermost faults, in ascending order and each once. There are
none exactly if no row of the tree is a fault.
-/
theorem faultLines_outermost (t : ParseTree) (h : t.FlagsFaults) :
    t.faultLines.Pairwise (· < ·)
    ∧ (∀ line, line ∈ t.faultLines ↔
        ∃ p ∈ t.places, p.IsOutermostFault ∧ p.row.line = line)
    ∧ (t.faultLines = [] ↔ ∀ row ∈ t.rows, ¬ row.isFault) := by
  refine ⟨t.pairwise_faultLines, ?_, ?_⟩
  . intro line
    rw [mem_faultLines_iff h]
    simp only [finds_iff_exists_place t [] h (List.forall_mem_nil _)]
    constructor
    . rintro ⟨_, ⟨p, hp, houtermost, rfl⟩, hline⟩
      exact ⟨p, hp, houtermost, hline⟩
    . rintro ⟨p, hp, houtermost, hline⟩
      exact ⟨p.row, ⟨p, hp, houtermost, rfl⟩, hline⟩
  . rw [← not_iff_not, ← ne_eq, faultLines_ne_nil_iff h, hasError_iff_exists_fault t h]
    simp only [not_forall, not_not, exists_prop]

def missingRow (type : String) (startRow : Nat) : ParseTree :=
  node ⟨type, false, true, true, some "", startRow, none⟩ []

def flaggedRow (type text : String) (startRow : Nat) (children : List ParseTree) : ParseTree :=
  node ⟨type, true, false, true, some text, startRow, none⟩ children

/--
An error that holds a missing row stands before a call that lacks its end.
-/
def brokenProgram : ParseTree :=
  flaggedRow "program" "def (; f(" 0
    [flaggedRow "ERROR" "def (" 2 [missingRow "identifier" 4],
     flaggedRow "call" "f(" 0 [namedRow "identifier" "f" none 0 [], missingRow ")" 0]]

theorem faultLines_brokenProgram :
    brokenProgram.FlagsFaults ∧ brokenProgram.faultLines = [1, 3]
      ∧ (∃ p ∈ brokenProgram.places, p.IsOutermostFault ∧ p.row.line = 3)
      ∧ (∃ row ∈ brokenProgram.rows, row.isFault ∧ row.line = 5)
      ∧ ¬ ∃ p ∈ brokenProgram.places, p.IsOutermostFault ∧ p.row.line = 5 := by
  have hflags : brokenProgram.FlagsFaults := by
    unfold FlagsFaults
    decide
  have hlines : brokenProgram.faultLines = [1, 3] := by decide +kernel
  obtain ⟨_, hmem, _⟩ := faultLines_outermost brokenProgram hflags
  rw [hlines] at hmem
  refine ⟨hflags, hlines, (hmem 3).1 (by decide), by decide, ?_⟩
  rw [← hmem 5]
  decide

end ParseTree

end MigrationLint
