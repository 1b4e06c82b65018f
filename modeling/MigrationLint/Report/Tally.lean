import MigrationLint.Table

/-!
This module contains tallies, which count names. A tally lists the names in the order in which they
were first counted.
-/

namespace MigrationLint

namespace Report

/--
How often each name was counted.
-/
abbrev Tally := Table String Nat

namespace Tally

/--
Get how often a name was counted.
-/
def count (t : Tally) (name : String) : Nat :=
  (Table.get? name t).getD 0

def add (t : Tally) (name : String) : Tally :=
  Table.put name (t.count name + 1) t

def addAll (t : Tally) (names : List String) : Tally :=
  names.foldl add t

/--
Add up how often all names were counted.
-/
def total (t : Tally) : Nat :=
  t.foldr (fun (_, n) total => n + total) 0

theorem count_add (t : Tally) (name n : String) :
    (t.add name).count n = t.count n + if n = name then 1 else 0 := by
  simp only [count, add, Table.get?_put]
  split
  . next h => simp [h]
  . rfl

theorem count_addAll (t : Tally) (names : List String) (n : String) :
    (t.addAll names).count n = t.count n + names.count n := by
  induction names generalizing t with
  | nil => simp [addAll]
  | cons name names ih =>
    have := ih (t.add name)
    simp only [addAll, List.foldl_cons] at this ⊢
    rw [this, count_add, List.count_cons]
    by_cases h : n = name
    . subst h
      simp
      omega
    . simp [h, Ne.symm h]

end Tally

end Report

end MigrationLint
