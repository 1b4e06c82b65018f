import MigrationLint.Proofs.Table
import MigrationLint.Report.Tally

/-!
This module contains the laws of tallies. Counting a name adds one to the total, and names are there
once they were counted.
-/

namespace MigrationLint

namespace Report

namespace Tally

theorem total_put (t : Tally) (name : String) (n : Nat) :
    total (Table.put name n t) + t.count name = t.total + n := by
  induction t with
  | nil => simp [Table.put, total, count, Table.get?]
  | cons entry entries ih =>
    obtain ⟨m, k⟩ := entry
    simp only [total, count] at ih
    unfold Table.put
    split
    . next h =>
      simp [total, count, Table.get?, h]
      omega
    . next h =>
      simp only [total, count, Table.get?, h, List.foldr_cons, ↓reduceIte]
      omega

theorem total_add (t : Tally) (name : String) : (t.add name).total = t.total + 1 := by
  have := total_put t name (t.count name + 1)
  rw [add]
  omega

theorem total_addAll (t : Tally) (names : List String) :
    (t.addAll names).total = t.total + names.length := by
  induction names generalizing t with
  | nil => rfl
  | cons name names ih =>
    have := ih (t.add name)
    rw [total_add] at this
    simp only [addAll, List.foldl_cons, List.length_cons] at this ⊢
    omega

theorem mem_names_addAll (t : Tally) (names : List String) (n : String) :
    n ∈ Table.names (t.addAll names) ↔ n ∈ Table.names t ∨ n ∈ names := by
  induction names generalizing t with
  | nil => simp [addAll]
  | cons name names ih =>
    have := ih (t.add name)
    simp only [addAll, List.foldl_cons] at this ⊢
    rw [this, add, Table.mem_names_put, List.mem_cons, or_assoc, or_left_comm]

theorem nodup_names_addAll {t : Tally} (h : (Table.names t).Nodup) (names : List String) :
    (Table.names (t.addAll names)).Nodup := by
  induction names generalizing t with
  | nil => exact h
  | cons name names ih => exact ih (Table.nodup_names_put h)

end Tally

end Report

end MigrationLint
