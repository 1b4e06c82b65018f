import Mathlib.Data.List.Nodup
import MigrationLint.Table

/-!
This module contains the laws of tables. Names stand in the order in which they were first put in,
none of them twice, and each leads to the value that was put in last.
-/

namespace MigrationLint

namespace Table

variable {κ α β : Type}

theorem names_map (f : α → β) (t : Table κ α) :
    names (t.map fun (n, value) => (n, f value)) = names t := by
  simp [names, Function.comp_def]

variable [DecidableEq κ]

theorem names_put (name : κ) (value : α) (t : Table κ α) :
    names (put name value t) = if name ∈ names t then names t else names t ++ [name] := by
  induction t with
  | nil => rfl
  | cons entry entries ih =>
    obtain ⟨n, v⟩ := entry
    simp only [names] at ih
    unfold put
    split
    . next h => simp [names, h]
    . next h =>
      simp only [names, List.map_cons, ih, List.mem_cons, Ne.symm h, false_or]
      by_cases hname : name ∈ entries.map (·.1) <;> simp only [hname, ↓reduceIte, List.cons_append]

theorem mem_names_put (name n : κ) (value : α) (t : Table κ α) :
    n ∈ names (put name value t) ↔ n = name ∨ n ∈ names t := by
  rw [names_put]
  split
  . next h =>
    constructor
    . exact .inr
    . rintro (rfl | hn)
      . exact h
      . exact hn
  . rw [List.mem_append, List.mem_singleton, or_comm]

theorem nodup_names_put {name : κ} {value : α} {t : Table κ α} (h : (names t).Nodup) :
    (names (put name value t)).Nodup := by
  rw [names_put]
  split
  . exact h
  . next hname => exact List.nodup_append_comm.1 (List.nodup_cons.2 ⟨hname, h⟩)

theorem put_of_notMem {name : κ} {value : α} {t : Table κ α} (h : name ∉ names t) :
    put name value t = t ++ [(name, value)] := by
  induction t with
  | nil => rfl
  | cons entry entries ih =>
    rw [names, List.map_cons, List.mem_cons, not_or] at h
    rw [put, if_neg (Ne.symm h.1), ih h.2, List.cons_append]

theorem get?_map (f : α → β) (name : κ) (t : Table κ α) :
    get? name (t.map fun (n, value) => (n, f value)) = (get? name t).map f := by
  induction t with
  | nil => rfl
  | cons entry entries ih =>
    obtain ⟨n, v⟩ := entry
    simp only [List.map_cons, get?, ih]
    split <;> rfl

/--
Put in entries one after the other.
-/
def putAll (t : Table κ α) (entries : List (κ × α)) : Table κ α :=
  entries.foldl (fun t (name, value) => put name value t) t

@[simp]
theorem putAll_cons (t : Table κ α) (name : κ) (value : α) (entries : List (κ × α)) :
    t.putAll ((name, value) :: entries) = (put name value t).putAll entries := rfl

theorem putAll_append (t : Table κ α) (early late : List (κ × α)) :
    t.putAll (early ++ late) = (t.putAll early).putAll late :=
  List.foldl_append

/--
Of the names that are put in, those that are new follow in the order of their first entries.
-/
theorem names_putAll (t : Table κ α) (entries : List (κ × α)) :
    names (t.putAll entries) =
      names t ++ ((entries.map (·.1)).filter fun name => !(names t).contains name).eraseDups := by
  induction entries generalizing t with
  | nil => simp [putAll]
  | cons entry entries ih =>
    obtain ⟨name, value⟩ := entry
    rw [putAll_cons, ih, names_put, List.map_cons]
    split
    . next h => rw [List.filter_cons_of_neg (by simpa using h)]
    . next h =>
      rw [List.filter_cons_of_pos (by simpa using h), List.eraseDups_cons, List.filter_filter,
        List.append_assoc, List.singleton_append]
      congr 3
      apply List.filter_congr
      intro n _
      by_cases hn : n = name <;> simp [hn]

theorem get?_putAll_of_notMem {t : Table κ α} {entries : List (κ × α)} {name : κ}
    (h : name ∉ entries.map (·.1)) : get? name (t.putAll entries) = get? name t := by
  induction entries generalizing t with
  | nil => rfl
  | cons entry entries ih =>
    rw [List.map_cons, List.mem_cons, not_or] at h
    rw [putAll_cons, ih h.2, get?_put, if_neg h.1]

theorem get?_putAll_last (t : Table κ α) {early late : List (κ × α)} {name : κ} {value : α}
    (h : name ∉ late.map (·.1)) :
    get? name (t.putAll (early ++ (name, value) :: late)) = some value := by
  rw [putAll_append, putAll_cons, get?_putAll_of_notMem h, get?_put, if_pos rfl]

theorem putAll_of_nodup {t : Table κ α} {entries : List (κ × α)}
    (h : (names t ++ entries.map (·.1)).Nodup) : t.putAll entries = t ++ entries := by
  induction entries generalizing t with
  | nil => simp [putAll]
  | cons entry entries ih =>
    obtain ⟨name, value⟩ := entry
    have hname : name ∉ names t := by
      intro hmem
      exact (List.nodup_append'.1 h).2.2 hmem List.mem_cons_self
    rw [putAll_cons, put_of_notMem hname, ih, List.append_assoc, List.singleton_append]
    simpa [names] using h

end Table

end MigrationLint
