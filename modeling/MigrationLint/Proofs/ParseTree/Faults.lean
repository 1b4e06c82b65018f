import Mathlib.Data.List.Basic
import MigrationLint.ParseTree.Faults

/-!
This module contains what the search for faults finds. The lines are strictly ascending, and they
are those of the rows that a descent reaches which follows the flags and stops at the first fault.
If the flags are as a parser sets them, the descent reaches a fault from every row with the flag.
-/

namespace MigrationLint

namespace ParseTree

variable {t : ParseTree} {line l : Nat} {lines : List Nat}

theorem mem_insertLine : l ∈ insertLine line lines ↔ l = line ∨ l ∈ lines := by
  fun_induction insertLine line lines with
  | case1 => simp
  | case2 => simp
  | case3 => simp
  | case4 first lines hlt hne ih =>
    rw [List.mem_cons, ih, List.mem_cons]
    exact or_left_comm

theorem pairwise_insertLine (h : lines.Pairwise (· < ·)) :
    (insertLine line lines).Pairwise (· < ·) := by
  fun_induction insertLine line lines with
  | case1 => simp
  | case2 first lines hlt =>
    refine List.pairwise_cons.2 ⟨?_, h⟩
    intro l hl
    rcases List.mem_cons.1 hl with rfl | hl
    . exact hlt
    . exact Nat.lt_trans hlt ((List.pairwise_cons.1 h).1 l hl)
  | case3 => exact h
  | case4 first lines hlt hne ih =>
    obtain ⟨hfirst, hlines⟩ := List.pairwise_cons.1 h
    refine List.pairwise_cons.2 ⟨?_, ih hlines⟩
    intro l hl
    rcases mem_insertLine.1 hl with rfl | hl
    . omega
    . exact hfirst l hl

theorem pairwise_go {stack : List ParseTree} (h : lines.Pairwise (· < ·)) :
    (faultLines.go stack lines).Pairwise (· < ·) := by
  fun_induction faultLines.go stack lines with
  | case1 => exact h
  | case2 lines t stack hfault ih => exact ih (pairwise_insertLine h)
  | case3 lines t stack hfault hflag ih => exact ih h
  | case4 lines t stack hfault hflag ih => exact ih h

theorem pairwise_faultLines (t : ParseTree) : t.faultLines.Pairwise (· < ·) := by
  unfold faultLines
  split
  . exact pairwise_go .nil
  . exact .nil

/--
A row below which a search finds a fault: the fault itself, or a row with the flag above one that
leads to it.
-/
inductive Finds : ParseTree → ParseTree → Prop where
  | fault {t : ParseTree} (hfault : t.isFault) : Finds t t
  | through {t c row : ParseTree} (hfault : ¬ t.isFault) (hflag : t.label.hasError)
      (hc : c ∈ t.children) (hrow : Finds c row) : Finds t row

theorem finds_of_isFault {row : ParseTree} (h : t.isFault) : t.Finds row ↔ row = t := by
  constructor
  . intro hfinds
    cases hfinds with
    | fault => rfl
    | through hfault => exact absurd h hfault
  . rintro rfl
    exact .fault h

theorem finds_of_flag {row : ParseTree} (h : ¬ t.isFault) (hflag : t.label.hasError) :
    t.Finds row ↔ ∃ c ∈ t.children, c.Finds row := by
  constructor
  . intro hfinds
    cases hfinds with
    | fault hfault => exact absurd hfault h
    | through _ _ hc hrow => exact ⟨_, hc, hrow⟩
  . rintro ⟨c, hc, hrow⟩
    exact .through h hflag hc hrow

theorem not_finds {row : ParseTree} (h : ¬ t.isFault) (hflag : ¬ t.label.hasError) :
    ¬ t.Finds row := by
  intro hfinds
  cases hfinds with
  | fault hfault => exact h hfault
  | through _ hflag' => exact hflag hflag'

theorem mem_go {stack : List ParseTree} :
    l ∈ faultLines.go stack lines ↔
      l ∈ lines ∨ ∃ t ∈ stack, ∃ row, t.Finds row ∧ row.line = l := by
  fun_induction faultLines.go stack lines with
  | case1 => simp
  | case2 lines t stack hfault ih =>
    rw [ih, mem_insertLine]
    simp only [List.mem_cons, exists_eq_or_imp, finds_of_isFault hfault, exists_eq_left]
    rw [or_assoc, or_left_comm, eq_comm]
  | case3 lines t stack hfault hflag ih =>
    have hbelow : (∃ row, t.Finds row ∧ row.line = l) ↔
        ∃ c ∈ t.children, ∃ row, c.Finds row ∧ row.line = l := by
      simp only [finds_of_flag hfault hflag]
      constructor
      . rintro ⟨row, ⟨c, hc, hrow⟩, hline⟩
        exact ⟨c, hc, row, hrow, hline⟩
      . rintro ⟨c, hc, row, hrow, hline⟩
        exact ⟨row, ⟨c, hc, hrow⟩, hline⟩
    rw [ih]
    simp only [List.mem_append, List.mem_reverse, List.mem_cons, or_and_right, exists_or,
      exists_eq_left, hbelow]
  | case4 lines t stack hfault hflag ih =>
    rw [ih]
    simp [not_finds hfault hflag]

/--
Flags as a parser sets them: a row has the flag exactly if it is a fault or one of its children has
the flag.
-/
def FlagsFaults (t : ParseTree) : Prop :=
  ∀ row ∈ t.rows, row.label.hasError ↔ row.isFault ∨ ∃ c ∈ row.children, c.label.hasError

theorem FlagsFaults.child {c : ParseTree} (h : t.FlagsFaults) (hc : c ∈ t.children) :
    c.FlagsFaults := by
  intro row hrow
  apply h
  exact mem_rows_of_mem_children hc hrow

theorem exists_finds (t : ParseTree) (h : t.FlagsFaults) (hflag : t.label.hasError) :
    ∃ row, t.Finds row := by
  by_cases hfault : t.isFault
  . exact ⟨t, .fault hfault⟩
  . obtain ⟨c, hc, hchild⟩ := ((h t t.mem_rows_self).1 hflag).resolve_left hfault
    obtain ⟨row, hrow⟩ := exists_finds c (h.child hc) hchild
    exact ⟨row, .through hfault hflag hc hrow⟩
termination_by t.size
decreasing_by exact size_lt_of_mem_children hc

theorem faultLines_ne_nil_iff (h : t.FlagsFaults) : t.faultLines ≠ [] ↔ t.label.hasError := by
  unfold faultLines
  by_cases hflag : t.label.hasError
  . obtain ⟨row, hrow⟩ := t.exists_finds h hflag
    have hmem : row.line ∈ faultLines.go [t] [] :=
      mem_go.2 (.inr ⟨t, List.mem_singleton_self t, row, hrow, rfl⟩)
    simp [hflag, List.ne_nil_of_mem hmem]
  . simp [hflag]

end ParseTree

end MigrationLint
