import Mathlib.Data.String.Basic
import TopicLint.Text.Order

/-! The order of texts is the lexicographic order of their characters, and sorting puts them in it. -/

namespace TopicLint.Text

theorem precedes_iff {s t : List Char} : precedes s t = true ↔ s ≤ t := by
  rw [← not_lt]
  induction s generalizing t with
  | nil => simp [precedes]
  | cons a s ih =>
    cases t with
    | nil => simp [precedes]
    | cons b t =>
      rw [precedes, List.cons_lt_cons_iff]
      by_cases same : a = b
      · subst same
        simp [ih]
      · have less : a.toNat < b.toNat ↔ a < b := Iff.rfl
        have one : ¬ b < a ↔ a < b := not_lt.trans (le_iff_lt_or_eq.trans (or_iff_left same))
        rw [if_neg same, decide_eq_true_eq, less, not_or, one, and_iff_left]
        rintro ⟨rfl, -⟩
        exact same rfl

theorem atMost_iff {s t : String} : atMost s t = true ↔ s ≤ t := by
  rw [atMost, precedes_iff, String.le_iff_toList_le]

theorem atMost_total (s t : String) : (atMost s t || atMost t s) = true := by
  rw [Bool.or_eq_true, atMost_iff, atMost_iff]
  exact le_total s t

theorem atMost_trans (s t u : String) (first : atMost s t = true) (second : atMost t u = true) :
    atMost s u = true :=
  atMost_iff.2 ((atMost_iff.1 first).trans (atMost_iff.1 second))

/-- Sorting by a text of each element puts these texts in their order. -/
theorem pairwise_le_mergeSort {α : Type} (key : α → String) (elements : List α) :
    (elements.mergeSort fun one other => atMost (key one) (key other)).Pairwise
      fun one other => key one ≤ key other := by
  refine (List.pairwise_mergeSort ?_ ?_ elements).imp fun le => atMost_iff.1 le
  · exact fun one two three => atMost_trans (key one) (key two) (key three)
  · exact fun one two => atMost_total (key one) (key two)

/-- Sorting puts different texts in their order. -/
theorem pairwise_lt_mergeSort {texts : List String} (distinct : texts.Nodup) :
    (texts.mergeSort atMost).Pairwise (· < ·) := by
  have ordered : (texts.mergeSort atMost).Pairwise (· ≤ ·) := pairwise_le_mergeSort id texts
  have apart : (texts.mergeSort atMost).Pairwise (· ≠ ·) := (List.mergeSort_perm _ _).nodup_iff.2 distinct
  exact ordered.imp₂ (fun _ _ => lt_of_le_of_ne) apart

end TopicLint.Text
