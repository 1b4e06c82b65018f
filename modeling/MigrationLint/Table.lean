/-!
This module contains tables: values by name, in the order in which the names were first put in.
-/

namespace MigrationLint

abbrev Table (κ α : Type) := List (κ × α)

namespace Table

variable {κ α : Type}

/--
Put a value under a name. A name that is there keeps its place.
-/
def put [DecidableEq κ] (name : κ) (value : α) : Table κ α → Table κ α
  | [] => [(name, value)]
  | (n, v) :: entries =>
    if n = name then (n, value) :: entries else (n, v) :: put name value entries

def get? [DecidableEq κ] (name : κ) : Table κ α → Option α
  | [] => none
  | (n, v) :: entries => if n = name then some v else get? name entries

def names (t : Table κ α) : List κ :=
  t.map (·.1)

theorem get?_put [DecidableEq κ] (name n : κ) (value : α) (t : Table κ α) :
    get? n (put name value t) = if n = name then some value else get? n t := by
  induction t with
  | nil => simp [put, get?, eq_comm]
  | cons entry entries ih =>
    obtain ⟨m, v⟩ := entry
    unfold put
    split
    . next h => by_cases hn : n = name <;> simp_all [get?, eq_comm]
    . next h => by_cases hm : m = n <;> simp_all [get?]

end Table

end MigrationLint
