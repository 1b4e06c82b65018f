import Mathlib.Data.List.Lex
import MigrationLint.Proofs.List
import MigrationLint.Text.Wide

/-!
This module contains the order of wide texts, which is that of their codes, and lists that are
sorted by it.
-/

namespace MigrationLint

namespace WideText

theorem eq_empty_iff {t : WideText} : t = "" ↔ t.codes = [] := by
  simp [WideText.ext_iff]

theorem lt_irrefl (t : WideText) : ¬ t < t :=
  List.lt_irrefl t.codes

theorem lt_asymm {s t : WideText} (h : s < t) : ¬ t < s :=
  List.lt_asymm h

theorem perm_sort (texts : List WideText) : (sort texts).Perm texts :=
  List.mergeSort_perm texts _

theorem pairwise_sort (texts : List WideText) :
    (sort texts).Pairwise fun s t => s.codes ≤ t.codes :=
  pairwise_mergeSort_key codes texts

theorem pairwise_lt_mergeSort {α : Type} {key : α → WideText} {as : List α}
    (h : (as.map key).Nodup) :
    (as.mergeSort fun a b => !decide (key b < key a)).Pairwise fun a b => key a < key b := by
  have hdistinct : (as.mergeSort fun a b => !decide (key b < key a)).Pairwise
      fun a b => key a ≠ key b := by
    rw [List.Nodup, List.pairwise_map] at h
    exact h.perm (List.mergeSort_perm as _).symm fun h => Ne.symm h
  have hsorted : (as.mergeSort fun a b => !decide (key b < key a)).Pairwise
      fun a b => (key a).codes ≤ (key b).codes :=
    pairwise_mergeSort_key (fun a => (key a).codes) as
  apply (hsorted.and hdistinct).imp
  intro a b ⟨hle, hne⟩
  exact lt_of_le_of_ne hle fun heq => hne (WideText.ext heq)

end WideText

end MigrationLint
