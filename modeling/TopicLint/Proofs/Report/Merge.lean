import TopicLint.Proofs.Lint.Schedule

/-! Putting reports together and sorting them. A report rearranges another one if it holds the same
findings and those of each file and line in the same order; counts do not see the difference, and of the
reports that rearrange one another a single one is in order. Sorting yields that one, so it makes no
difference whether parts of a report were sorted before. -/

namespace TopicLint.Report

/-- Whether a report holds the findings of another one, those with one key in the same order. -/
structure Rearranges (report other : Report) : Prop where
  files : other.files = report.files
  perm : other.diagnostics.Perm report.diagnostics
  stable : ∀ place, other.diagnostics.filter (key · = place) = report.diagnostics.filter (key · = place)

theorem filter_alike (diagnostics : List Diagnostic) (diagnostic : Diagnostic) :
    diagnostics.filter (alike inOrder diagnostic) = diagnostics.filter (key · = key diagnostic) := by
  apply List.filter_congr
  intro other _
  rw [Bool.eq_iff_iff, alike_iff, decide_eq_true_eq]

variable {report other a b : Report}

theorem count_append (a b : Report) (severity : Severity) :
    (a.append b).count severity = a.count severity + b.count severity := List.countP_append

/-- A run ends as badly as the worst of its parts. -/
theorem exitCode_append (a b : Report) : (a.append b).exitCode = max a.exitCode b.exitCode := by
  unfold exitCode
  rw [count_append, count_append]
  split_ifs <;> omega

theorem ordered_sort (report : Report) :
    report.sort.diagnostics.Pairwise fun one other => key one ≤ key other :=
  (List.pairwise_mergeSort inOrder_trans inOrder_total report.diagnostics).imp inOrder_iff.1

theorem rearranges_sort (report : Report) : Rearranges report report.sort where
  files := rfl
  perm := List.mergeSort_perm _ _
  stable place := by
    by_cases used : ∃ diagnostic, key diagnostic = place
    · obtain ⟨diagnostic, rfl⟩ := used
      rw [← filter_alike, ← filter_alike]
      exact filter_mergeSort inOrder_total inOrder_trans report.diagnostics diagnostic
    · have unused (diagnostic : Diagnostic) : ¬ key diagnostic = place := fun same => used ⟨_, same⟩
      simp [unused]

namespace Rearranges

theorem refl (report : Report) : Rearranges report report := ⟨rfl, .refl _, fun _ => rfl⟩

theorem append {first second : Report} (one : Rearranges a first) (two : Rearranges b second) :
    Rearranges (a.append b) (first.append second) where
  files := congrArg₂ (· + ·) one.files two.files
  perm := one.perm.append two.perm
  stable place := by
    rw [Report.append, Report.append, List.filter_append, List.filter_append, one.stable, two.stable]

theorem count_eq (same : Rearranges report other) (severity : Severity) :
    other.count severity = report.count severity := same.perm.countP_eq _

theorem exitCode_eq (same : Rearranges report other) : other.exitCode = report.exitCode := by
  rw [exitCode, exitCode, same.count_eq, same.count_eq]

theorem sort_eq (same : Rearranges report other) : other.sort = report.sort := by
  have findings : other.diagnostics.mergeSort inOrder = report.diagnostics.mergeSort inOrder := by
    apply mergeSort_eq_of_filter_eq inOrder_total inOrder_trans
    intro diagnostic
    rw [filter_alike, filter_alike, same.stable]
  rw [sort, sort, findings, same.files]

end Rearranges

/-- Of the reports that rearrange a report, sorting yields the one that is in order. -/
theorem eq_sort_iff : other = report.sort ↔ Rearranges report other ∧
    other.diagnostics.Pairwise fun one other => key one ≤ key other := by
  constructor
  · rintro rfl
    exact ⟨rearranges_sort report, ordered_sort report⟩
  · rintro ⟨same, ordered⟩
    have already : other.sort = other := by
      rw [sort, List.mergeSort_of_pairwise (ordered.imp inOrder_iff.2)]
    rw [← same.sort_eq, already]

/-- Parts of a report may be sorted before they are put together. -/
theorem rearranges_concat (reports : List Report) :
    Rearranges (concat reports) (concat (reports.map sort)) := by
  induction reports with
  | nil => exact .refl _
  | cons report rest ih =>
    rw [List.map_cons, concat_cons, concat_cons]
    exact (rearranges_sort report).append ih

/-- Reports are put together like lists: in any grouping, with the empty report making no difference and
counts adding up. Sorting a report yields the one report in order that holds the same findings and those
with one key in the same order; nothing is counted anew by it, and what was sorted before it is put
together is sorted in the end as if it had not been. -/
theorem sort_normalizes (a b c : Report) :
    ((a.append b).append c = a.append (b.append c) ∧ empty.append a = a ∧ a.append empty = a) ∧
    ((∀ severity, (a.append b).count severity = a.count severity + b.count severity) ∧
      (a.append b).files = a.files + b.files ∧
      (a.append b).exitCode = max a.exitCode b.exitCode) ∧
    (∀ sorted, sorted = a.sort ↔ Rearranges a sorted ∧
      sorted.diagnostics.Pairwise fun one other => key one ≤ key other) ∧
    ((∀ severity, a.sort.count severity = a.count severity) ∧ a.sort.files = a.files ∧
      a.sort.exitCode = a.exitCode) ∧
    a.sort.sort = a.sort ∧ (a.sort.append b.sort).sort = (a.append b).sort ∧
    ∀ reports : List Report, (concat (reports.map sort)).sort = (concat reports).sort := by
  have once := rearranges_sort a
  exact ⟨⟨append_assoc a b c, empty_append a, append_empty a⟩,
    ⟨count_append a b, rfl, exitCode_append a b⟩, fun _ => eq_sort_iff,
    ⟨once.count_eq, once.files, once.exitCode_eq⟩, once.sort_eq,
    (once.append (rearranges_sort b)).sort_eq, fun reports => (rearranges_concat reports).sort_eq⟩

end TopicLint.Report
