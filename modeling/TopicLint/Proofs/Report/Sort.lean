import Mathlib.Data.Prod.Lex
import TopicLint.Proofs.Text.Order
import TopicLint.Report.Basic

/-! Sorting reports. The order of findings is total, and sorting keeps the order of findings that
agree in file and line; so a sorted list is determined by what it holds of each file and line. -/

namespace TopicLint.Report

open List

section Stability

variable {α : Type} {le : α → α → Bool}

/-- Whether two elements may stand either way. -/
def alike (le : α → α → Bool) (a b : α) : Bool := le a b && le b a

theorem alike_self (total : ∀ a b, (le a b || le b a) = true) (a : α) : alike le a a = true := by
  have either := total a a
  rw [Bool.or_self] at either
  rw [alike, either, Bool.and_self]

/-- Sorting keeps the order of elements that are alike. -/
theorem filter_mergeSort (total : ∀ a b, (le a b || le b a) = true)
    (trans : ∀ a b c, le a b = true → le b c = true → le a c = true) (elements : List α) (a : α) :
    (elements.mergeSort le).filter (alike le a) = elements.filter (alike le a) := by
  have sorted : (elements.filter (alike le a)).Pairwise (fun b c => le b c = true) := by
    apply pairwise_of_forall_mem_list
    intro b member c member'
    have first := (mem_filter.1 member).2
    have second := (mem_filter.1 member').2
    rw [alike, Bool.and_eq_true] at first second
    exact trans b a c first.2 second.1
  have kept := (sublist_mergeSort trans total sorted filter_sublist).filter (alike le a)
  simp only [filter_filter, Bool.and_self] at kept
  exact (kept.eq_of_length ((mergeSort_perm elements le).filter _).length_eq.symm).symm

theorem le_head (total : ∀ a b, (le a b || le b a) = true) {a b : α} {rest : List α}
    (sorted : (b :: rest).Pairwise fun a b => le a b = true) (member : a ∈ b :: rest) :
    le b a = true := by
  rcases mem_cons.1 member with rfl | later
  · have either := total a a
    rwa [Bool.or_self] at either
  · exact rel_of_pairwise_cons sorted later

theorem mem_of_filter_eq (total : ∀ a b, (le a b || le b a) = true) {one two : List α}
    (same : ∀ a, one.filter (alike le a) = two.filter (alike le a)) {a : α} (member : a ∈ one) :
    a ∈ two := by
  have found : a ∈ one.filter (alike le a) := mem_filter.2 ⟨member, alike_self total a⟩
  rw [same] at found
  exact (mem_filter.1 found).1

/-- A sorted list is determined by its elements that are alike, for each of them. -/
theorem eq_of_filter_eq {one two : List α} (total : ∀ a b, (le a b || le b a) = true)
    (first : one.Pairwise fun a b => le a b = true) (second : two.Pairwise fun a b => le a b = true)
    (same : ∀ a, one.filter (alike le a) = two.filter (alike le a)) : one = two := by
  induction one generalizing two with
  | nil =>
    symm
    apply eq_nil_iff_forall_not_mem.2
    intro a member
    exact absurd (mem_of_filter_eq total (fun a => (same a).symm) member) not_mem_nil
  | cons a one ih =>
    have inside := mem_of_filter_eq total same mem_cons_self
    cases two with
    | nil => cases inside
    | cons b two =>
      have inside' := mem_of_filter_eq total (fun a => (same a).symm) mem_cons_self
      -- Both heads stand in both lists, so they are alike, and each is the first of its class.
      have close : alike le a b = true := by
        rw [alike, le_head total first inside', le_head total second inside, Bool.and_self]
      have heads := same a
      rw [filter_cons_of_pos (alike_self total a), filter_cons_of_pos close] at heads
      obtain ⟨rfl, -⟩ := cons.inj heads
      have rests (c : α) : one.filter (alike le c) = two.filter (alike le c) := by
        have whole := same c
        rw [filter_cons, filter_cons] at whole
        split at whole
        · exact (cons.inj whole).2
        · exact whole
      rw [ih first.of_cons second.of_cons rests]

/-- Lists that agree on elements that are alike have one sorted form. -/
theorem mergeSort_eq_of_filter_eq (total : ∀ a b, (le a b || le b a) = true)
    (trans : ∀ a b c, le a b = true → le b c = true → le a c = true) {one two : List α}
    (same : ∀ a, one.filter (alike le a) = two.filter (alike le a)) :
    one.mergeSort le = two.mergeSort le := by
  apply eq_of_filter_eq total (pairwise_mergeSort trans total one) (pairwise_mergeSort trans total two)
  intro a
  rw [filter_mergeSort total trans, filter_mergeSort total trans, same]

/-- Leaving elements out and sorting can change places. -/
theorem filter_mergeSort_comm (total : ∀ a b, (le a b || le b a) = true)
    (trans : ∀ a b c, le a b = true → le b c = true → le a c = true) (good : α → Bool)
    (elements : List α) : (elements.mergeSort le).filter good = (elements.filter good).mergeSort le := by
  apply eq_of_filter_eq total ((pairwise_mergeSort trans total elements).filter good)
    (pairwise_mergeSort trans total (elements.filter good))
  intro a
  calc ((elements.mergeSort le).filter good).filter (alike le a)
    _ = ((elements.mergeSort le).filter (alike le a)).filter good := by
      simp only [filter_filter, Bool.and_comm]
    _ = (elements.filter (alike le a)).filter good := by rw [filter_mergeSort total trans]
    _ = (elements.filter good).filter (alike le a) := by
      simp only [filter_filter, Bool.and_comm]
    _ = ((elements.filter good).mergeSort le).filter (alike le a) :=
      (filter_mergeSort total trans _ a).symm

end Stability

/-- Elements that all carry the index they come from are found by that index. -/
theorem filter_flatMap_own {α β : Type} [DecidableEq β] {f : β → List α} {place : α → β} {a : β}
    (own : ∀ b, ∀ x ∈ f b, place x = b) (elements : List β) :
    (elements.flatMap f).filter (place · == a) = (replicate (elements.count a) (f a)).flatten := by
  induction elements with
  | nil => rfl
  | cons b rest ih =>
    rw [flatMap_cons, filter_append, ih, count_cons]
    by_cases here : b = a
    · subst here
      have all : (f b).filter (place · == b) = f b :=
        filter_eq_self.2 fun x member => beq_iff_eq.2 (own b x member)
      rw [all, if_pos (beq_self_eq_true b), replicate_succ, flatten_cons]
    · have nothing : (f b).filter (place · == a) = [] := by
        apply filter_eq_nil_iff.2
        intro x member same
        exact here ((own b x member).symm.trans (eq_of_beq same))
      rw [nothing, nil_append, if_neg (by simpa using here), Nat.add_zero]

/-- What findings are ordered by: their file, without regard to case, and then their line. -/
def key (diagnostic : Diagnostic) : String ×ₗ Nat :=
  toLex (Text.lowercase diagnostic.file, diagnostic.line)

section Order

theorem inOrder_iff {one other : Diagnostic} : inOrder one other = true ↔ key one ≤ key other := by
  rw [inOrder, key, key, Prod.Lex.toLex_le_toLex]
  show _ ↔ sortKey one < sortKey other ∨ sortKey one = sortKey other ∧ one.line ≤ other.line
  by_cases same : sortKey one = sortKey other
  · simp [same]
  · rw [if_neg same, Text.atMost_iff, le_iff_lt_or_eq, or_iff_left same]
    exact (or_iff_left fun equal => same equal.1).symm

theorem inOrder_total (a b : Diagnostic) : (inOrder a b || inOrder b a) = true := by
  rw [Bool.or_eq_true, inOrder_iff, inOrder_iff]
  exact le_total (key a) (key b)

theorem inOrder_trans (a b c : Diagnostic) (first : inOrder a b = true) (second : inOrder b c = true) :
    inOrder a c = true :=
  inOrder_iff.2 ((inOrder_iff.1 first).trans (inOrder_iff.1 second))

theorem alike_iff {one other : Diagnostic} : alike inOrder one other = true ↔ key other = key one := by
  rw [alike, Bool.and_eq_true, inOrder_iff, inOrder_iff, eq_comm]
  exact le_antisymm_iff.symm

/-- Findings that may stand either way are about one file, as files are ordered. -/
theorem sortKey_eq_of_alike {a b : Diagnostic} (close : alike inOrder a b = true) :
    sortKey a = sortKey b :=
  (Prod.mk.inj (alike_iff.1 close)).1.symm

end Order

end TopicLint.Report
