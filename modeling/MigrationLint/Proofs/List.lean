import Mathlib.Data.List.Forall2
import Mathlib.Data.List.Nodup

/-!
This module contains facts on lists that are shared by proofs about different parts: on positions,
members and order, on lists that are related entry by entry, and on steps over a list that may fail.
-/

namespace MigrationLint

theorem pairwise_zipIdx {α : Type} (as : List α) (start : ℕ) :
    (as.zipIdx start).Pairwise fun a b => a.2 < b.2 := by
  have hpositions : ((as.zipIdx start).map (·.2)).Pairwise (· < ·) := by
    rw [List.zipIdx_map_snd]
    exact List.pairwise_lt_range'
  exact List.pairwise_map.1 hpositions

theorem mem_of_mem_zipIdx {α : Type} {a : α} {i : Nat} {as : List α} (h : (a, i) ∈ as.zipIdx) :
    a ∈ as := by
  rw [List.mk_mem_zipIdx_iff_getElem?] at h
  exact List.mem_of_getElem? h

theorem flatMap_filter_eq {α β : Type} {p : α → Bool} {f : α → List β} {as : List α}
    (h : ∀ a ∈ as, p a = false → f a = []) : (as.filter p).flatMap f = as.flatMap f := by
  induction as with
  | nil => rfl
  | cons a as ih =>
    have ih := ih fun b hb => h b (List.mem_cons_of_mem a hb)
    cases hp : p a with
    | true => simp [hp, ih]
    | false => simp [hp, ih, h a List.mem_cons_self hp]

theorem filterMap_filter_eq {α β : Type} {p : α → Bool} {f : α → Option β} {as : List α}
    (h : ∀ a ∈ as, p a = false → f a = none) : (as.filter p).filterMap f = as.filterMap f := by
  rw [List.filterMap_filter]
  apply List.filterMap_congr
  intro a ha
  split
  . rfl
  . next hp => exact (h a ha (Bool.eq_false_iff.2 hp)).symm

theorem append_eq_append_cons_iff {α : Type} {as bs before after : List α} {a : α} :
    as ++ bs = before ++ a :: after ↔
      (∃ between, as = before ++ a :: between ∧ after = between ++ bs)
        ∨ ∃ between, before = as ++ between ∧ bs = between ++ a :: after := by
  rw [List.append_eq_append_iff, or_comm]
  constructor
  . rintro (⟨between, rfl, h⟩ | h)
    . rcases List.cons_eq_append_iff.1 h with ⟨rfl, rfl⟩ | ⟨between, rfl, rfl⟩
      . exact .inr ⟨[], by simp⟩
      . exact .inl ⟨between, rfl, rfl⟩
    . exact .inr h
  . rintro (⟨between, rfl, rfl⟩ | h)
    . exact .inl ⟨a :: between, rfl, rfl⟩
    . exact .inr h

/--
What is before the first occurrence of an entry is known, and so is what is after it.
-/
theorem append_cons_inj_of_notMem {α : Type} {as bs after others : List α} {a : α} (has : a ∉ as)
    (hbs : a ∉ bs) : as ++ a :: after = bs ++ a :: others ↔ as = bs ∧ after = others := by
  constructor
  . intro h
    rcases append_eq_append_cons_iff.1 h with ⟨between, rfl, _⟩ | ⟨between, rfl, hbetween⟩
    . exact absurd (List.mem_append_right _ List.mem_cons_self) has
    . cases between with
      | nil =>
        cases hbetween
        exact ⟨(List.append_nil _).symm, rfl⟩
      | cons b between =>
        cases hbetween
        exact absurd (List.mem_append_right _ List.mem_cons_self) hbs
  . rintro ⟨rfl, rfl⟩
    rfl

theorem append_inj_of_notMem {α : Type} {as bs after others : List α} {a : α} (has : a ∉ as)
    (hbs : a ∉ bs) (hafter : ∀ b ∈ after.head?, b = a) (hothers : ∀ b ∈ others.head?, b = a) :
    as ++ after = bs ++ others ↔ as = bs ∧ after = others := by
  cases after with
  | nil =>
    cases others with
    | nil => simp
    | cons b others =>
      cases hothers b rfl
      constructor
      . intro h
        rw [List.append_nil] at h
        exact absurd (h ▸ List.mem_append_right bs List.mem_cons_self) has
      . exact fun h => nomatch h.2
  | cons b after =>
    cases hafter b rfl
    cases others with
    | nil =>
      constructor
      . intro h
        rw [List.append_nil] at h
        exact absurd (h ▸ List.mem_append_right as List.mem_cons_self) hbs
      . exact fun h => nomatch h.2
    | cons b others =>
      cases hothers b rfl
      rw [append_cons_inj_of_notMem has hbs, List.cons.injEq, eq_self, true_and]

theorem notMem_of_mem_splitOn {α : Type} [BEq α] [LawfulBEq α] {a : α} {as part : List α}
    (h : part ∈ as.splitOn a) : a ∉ part := by
  induction as generalizing part with
  | nil =>
    rw [List.splitOn_nil, List.mem_singleton] at h
    rw [h]
    exact List.not_mem_nil
  | cons b as ih =>
    rw [List.splitOn_cons_eq_if_modifyHead] at h
    split at h
    . rcases List.mem_cons.1 h with rfl | h
      . exact List.not_mem_nil
      . exact ih h
    . next hne =>
      obtain ⟨first, later, hsplit⟩ := List.exists_cons_of_ne_nil (List.splitOn_ne_nil a as)
      rw [hsplit] at h ih
      rw [List.modifyHead_cons] at h
      rcases List.mem_cons.1 h with rfl | h
      . have hfirst := ih List.mem_cons_self
        rintro (⟨⟩ | ⟨_, hmem⟩)
        . exact hne BEq.rfl
        . exact hfirst hmem
      . exact ih (List.mem_cons_of_mem first h)

theorem forall_or_exists_first {α : Type} (P : α → Prop) (as : List α) :
    (∀ a ∈ as, P a)
      ∨ ∃ early a late, as = early ++ a :: late ∧ (∀ b ∈ early, P b) ∧ ¬ P a := by
  induction as with
  | nil => exact .inl (List.forall_mem_nil P)
  | cons a as ih =>
    by_cases ha : P a
    . rcases ih with has | ⟨early, b, late, rfl, hearly, hb⟩
      . exact .inl (List.forall_mem_cons.2 ⟨ha, has⟩)
      . exact .inr ⟨a :: early, b, late, rfl, List.forall_mem_cons.2 ⟨ha, hearly⟩, hb⟩
    . exact .inr ⟨[], a, as, rfl, List.forall_mem_nil P, ha⟩

theorem pairwise_mergeSort_key {α β : Type} [LE β] [LT β] [DecidableLT β] [Std.IsLinearOrder β]
    [Std.LawfulOrderLT β] (key : α → β) (as : List α) :
    (as.mergeSort fun a b => !decide (key b < key a)).Pairwise fun a b => key a ≤ key b := by
  have hsorted : (as.mergeSort fun a b => !decide (key b < key a)).Pairwise
      fun a b => !decide (key b < key a) := by
    apply List.pairwise_mergeSort
    . intro a b c hab hbc
      simp only [Bool.not_eq_true', decide_eq_false_iff_not, Std.not_lt] at hab hbc ⊢
      exact Std.le_trans hab hbc
    . intro a b
      simp only [Bool.or_eq_true, Bool.not_eq_true', decide_eq_false_iff_not, Std.not_lt]
      exact Std.le_total
  apply hsorted.imp
  intro a b hab
  simpa only [Bool.not_eq_true', decide_eq_false_iff_not, Std.not_lt] using hab

theorem head?_eq_of_perm {α : Type} {as bs : List α} (h : as.Perm bs) (hlength : bs.length ≤ 1) :
    as.head? = bs.head? := by
  match bs with
  | [] => rw [h.eq_nil]
  | [b] => rw [h.eq_singleton]

theorem mem_foldl_insert {names added : List String} {name : String} :
    name ∈ added.foldl (fun names name => names.insert name) names ↔
      name ∈ names ∨ name ∈ added := by
  induction added generalizing names with
  | nil => simp
  | cons first rest ih =>
    rw [List.foldl_cons, ih, List.mem_insert_iff, List.mem_cons, or_assoc, or_left_comm]

theorem nodup_foldl_insert {names added : List String} (h : names.Nodup) :
    (added.foldl (fun names name => names.insert name) names).Nodup := by
  induction added generalizing names with
  | nil => exact h
  | cons first rest ih =>
    apply ih
    exact List.Nodup.insert h

section Related

variable {α β γ : Type} {R : α → β → Prop} {as : List α} {bs : List β}

theorem rel_getElem? (h : List.Forall₂ R as bs) (i : ℕ) : Option.Rel R as[i]? bs[i]? := by
  induction h generalizing i with
  | nil => exact .none
  | cons hab _ ih =>
    cases i with
    | zero => exact .some hab
    | succ i => exact ih i

theorem map_filter_eq_of_rel {f : α → γ} {g : β → γ} {p : α → Bool} {q : β → Bool} {a : Option α}
    {b : Option β} (h : Option.Rel R a b) (hpq : ∀ a b, R a b → p a = q b)
    (hfg : ∀ a b, R a b → f a = g b) : (a.filter p).map f = (b.filter q).map g := by
  cases h with
  | none => rfl
  | some h =>
    rw [Option.filter_some, Option.filter_some, hpq _ _ h]
    split
    . rw [Option.map_some, Option.map_some, hfg _ _ h]
    . rfl

theorem getElem?_of_forall₂ (h : List.Forall₂ R as bs) {i : ℕ} {a : α} (ha : as[i]? = some a) :
    ∃ b, bs[i]? = some b ∧ R a b := by
  have hrel := rel_getElem? h i
  rw [ha] at hrel
  generalize bs[i]? = found at hrel
  cases hrel with
  | some hab => exact ⟨_, rfl, hab⟩

theorem exists_of_forall₂ (h : List.Forall₂ R as bs) {a : α} (ha : a ∈ as) : ∃ b ∈ bs, R a b := by
  obtain ⟨i, hi⟩ := List.getElem?_of_mem ha
  obtain ⟨b, hb, hab⟩ := getElem?_of_forall₂ h hi
  exact ⟨b, List.mem_of_getElem? hb, hab⟩

theorem map_eq_of_forall₂ {f : α → γ} {g : β → γ} (h : List.Forall₂ R as bs)
    (hfg : ∀ a ∈ as, ∀ b, R a b → f a = g b) : as.map f = bs.map g := by
  induction h with
  | nil => rfl
  | cons hab _ ih =>
    obtain ⟨ha, has⟩ := List.forall_mem_cons.1 hfg
    rw [List.map_cons, List.map_cons, ha _ hab, ih has]

theorem forall₂_trans {S : β → γ → Prop} {T : α → γ → Prop} (h : ∀ a b c, R a b → S b c → T a c)
    {cs : List γ} (h₁ : List.Forall₂ R as bs) (h₂ : List.Forall₂ S bs cs) :
    List.Forall₂ T as cs := by
  induction h₁ generalizing cs with
  | nil =>
    cases h₂
    exact .nil
  | cons hab _ ih =>
    cases h₂ with
    | cons hbc hbcs => exact .cons (h _ _ _ hab hbc) (ih hbcs)

theorem exists_forall₂ (h : ∀ a ∈ as, ∃ b, R a b) : ∃ bs, List.Forall₂ R as bs := by
  induction as with
  | nil => exact ⟨[], .nil⟩
  | cons a as ih =>
    obtain ⟨b, hb⟩ := h a List.mem_cons_self
    obtain ⟨bs, hbs⟩ := ih fun c hc => h c (List.mem_cons_of_mem a hc)
    exact ⟨b :: bs, .cons hb hbs⟩

theorem forall₂_map {f : α → β} (h : ∀ a ∈ as, R a (f a)) : List.Forall₂ R as (as.map f) :=
  List.forall₂_map_right_iff.2 (List.forall₂_same.2 h)

theorem forall₂_filterMap {f : α → Option β} (h : ∀ a ∈ as, ∃ b, f a = some b ∧ R a b) :
    List.Forall₂ R as (as.filterMap f) := by
  induction as with
  | nil => exact .nil
  | cons a as ih =>
    obtain ⟨⟨b, hb, hab⟩, has⟩ := List.forall_mem_cons.1 h
    rw [List.filterMap_cons_some hb]
    exact .cons hab (ih has)

end Related

section Failing

variable {α β ε : Type}

theorem mapM_eq_ok_iff {f : α → Except ε β} {as : List α} {bs : List β} :
    as.mapM f = .ok bs ↔ List.Forall₂ (fun a b => f a = .ok b) as bs := by
  induction as generalizing bs with
  | nil => simp [pure, Except.pure, eq_comm]
  | cons a as ih =>
    rw [List.mapM_cons, List.forall₂_cons_left_iff]
    cases f a with
    | error error => simp [bind, Except.bind]
    | ok b =>
      simp only [← ih]
      cases as.mapM f with
      | error error => simp [bind, Except.bind]
      | ok bs => simp [bind, Except.bind, pure, Except.pure, eq_comm]

/--
If the errors of a step do not depend on the steps before it, the first entry with an error tells.
-/
theorem foldlM_eq_error_iff {f : β → α → Except ε β} {R : α → ε → Prop} {error : ε}
    (hf : ∀ b a e, f b a = .error e ↔ R a e) (as : List α) (b : β) :
    as.foldlM f b = .error error ↔
      ∃ early a late, as = early ++ a :: late ∧ (∀ x ∈ early, ∀ e, ¬ R x e) ∧ R a error := by
  induction as generalizing b with
  | nil => simp [pure, Except.pure]
  | cons a as ih =>
    rw [List.foldlM_cons]
    cases ha : f b a with
    | error e =>
      have hR := (hf b a e).1 ha
      constructor
      . intro h
        cases h
        exact ⟨[], a, as, rfl, by simp, hR⟩
      . rintro ⟨early, x, late, heq, hearly, hx⟩
        cases early with
        | nil =>
          cases heq
          cases ha.symm.trans ((hf b a error).2 hx)
          rfl
        | cons y early =>
          cases heq
          exact absurd hR (hearly a List.mem_cons_self e)
    | ok next =>
      have hR : ∀ e, ¬ R a e := by
        intro e h
        rw [(hf b a e).2 h] at ha
        cases ha
      refine (ih next).trans ?_
      constructor
      . rintro ⟨early, x, late, rfl, hearly, hx⟩
        exact ⟨a :: early, x, late, rfl, List.forall_mem_cons.2 ⟨hR, hearly⟩, hx⟩
      . rintro ⟨early, x, late, heq, hearly, hx⟩
        cases early with
        | nil =>
          cases heq
          exact absurd hx (hR error)
        | cons y early =>
          cases heq
          exact ⟨early, x, late, rfl, (List.forall_mem_cons.1 hearly).2, hx⟩

end Failing

end MigrationLint
