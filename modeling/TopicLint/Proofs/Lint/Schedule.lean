import TopicLint.Lint
import TopicLint.Proofs.Report.Sort

/-! Scheduling. Files are looked at in any order and by any number of workers, and the reports on them
are put together pair by pair, with empty reports in between. After sorting nothing of this is left,
as long as no two paths differ in case only. -/

namespace TopicLint

/-- How the reports on files are put together: a tree with a file or nothing at each leaf. -/
inductive Reduction where
  | idle
  | file (path : String)
  | both (first second : Reduction)
  deriving DecidableEq, Repr

namespace Reduction

/-- The files of a reduction from left to right. -/
def paths : Reduction → List String
  | idle => []
  | file path => [path]
  | both first second => first.paths ++ second.paths

/-- The report that a reduction ends with. -/
def result (report : String → Report) : Reduction → Report
  | idle => Report.empty
  | file path => report path
  | both first second => (first.result report).append (second.result report)

end Reduction

namespace Report

theorem foldl_append_eq (start : Report) (reports : List Report) :
    reports.foldl append start = start.append (concat reports) := by
  unfold concat
  induction reports generalizing start with
  | nil => exact (append_empty start).symm
  | cons report rest ih =>
    rw [List.foldl_cons, List.foldl_cons, ih, ih (empty.append report), empty_append, append_assoc]

theorem concat_cons (report : Report) (reports : List Report) :
    concat (report :: reports) = report.append (concat reports) := by
  rw [concat, List.foldl_cons, empty_append, foldl_append_eq]

theorem concat_append (first second : List Report) :
    concat (first ++ second) = (concat first).append (concat second) := by
  rw [concat, List.foldl_append, foldl_append_eq]
  rfl

theorem diagnostics_concat (reports : List Report) :
    (concat reports).diagnostics = reports.flatMap (·.diagnostics) := by
  induction reports with
  | nil => rfl
  | cons report rest ih => rw [concat_cons, List.flatMap_cons, ← ih]; rfl

theorem files_concat_cons (report : Report) (reports : List Report) :
    (concat (report :: reports)).files = report.files + (concat reports).files := by
  rw [concat_cons]
  rfl

theorem files_concat_perm {one two : List Report} (permuted : one.Perm two) :
    (concat one).files = (concat two).files := by
  induction permuted with
  | nil => rfl
  | cons report _ ih => rw [files_concat_cons, files_concat_cons, ih]
  | swap first second rest =>
    simp only [files_concat_cons]
    omega
  | trans _ _ ih ih' => exact ih.trans ih'

end Report

/-- However the reports on files are put together, they stand in the order of the files. -/
theorem Reduction.result_eq (report : String → Report) (reduction : Reduction) :
    reduction.result report = Report.concat (reduction.paths.map report) := by
  induction reduction with
  | idle => rfl
  | file path => exact (Report.empty_append (report path)).symm
  | both first second ih ih' =>
    rw [Reduction.result, Reduction.paths, List.map_append, Report.concat_append, ih, ih']

namespace Linter

/-- A report that a run on files can end with. One worker takes the files in turn; more of them, or as
many as there are processors, leave open how the reports are put together. -/
inductive Runs (linter : Linter) (read : String → Option String) (language : String) :
    List String → Report → Prop where
  | sequential {paths : List String} (alone : linter.config.jobs = 1) :
      Runs linter read language paths
        ((paths.map (linter.lintFile read language)).foldl Report.append Report.empty).sort
  | parallel {reduction : Reduction} (shared : linter.config.jobs ≠ 1) :
      Runs linter read language reduction.paths
        (reduction.result (linter.lintFile read language)).sort

/-- A linter that does the same with another number of workers. -/
def withJobs (linter : Linter) (jobs : Nat) : Linter :=
  { linter with config := { linter.config with jobs } }

section Files

variable (linter : Linter) (read : String → Option String) (language : String)

/-- What is found in a file carries its path. -/
theorem file_of_mem_lintFile {path : String} {diagnostic : Diagnostic}
    (member : diagnostic ∈ (linter.lintFile read language path).diagnostics) : diagnostic.file = path := by
  unfold lintFile at member
  split at member
  · cases member
  · simp only [lintText] at member
    split at member
    · obtain ⟨node, -, told⟩ := List.mem_flatMap.1 member
      obtain ⟨rule, -, rfl⟩ := List.mem_map.1 told
      rfl
    · rw [List.mem_singleton.1 member]
      rfl

/-- What is found of a kind in files does not depend on their order, if it is found in one of them. -/
theorem flatMap_perm {α β : Type} {f : α → List β} {one two : List α} (permuted : one.Perm two)
    (lone : two.Pairwise fun a b => f a = [] ∨ f b = []) : one.flatMap f = two.flatMap f := by
  induction permuted with
  | nil => rfl
  | cons a _ ih => rw [List.flatMap_cons, List.flatMap_cons, ih lone.of_cons]
  | swap a b rest =>
    simp only [List.flatMap_cons]
    rcases List.rel_of_pairwise_cons lone List.mem_cons_self with nothing | nothing
    · rw [nothing, List.nil_append, List.nil_append]
    · rw [nothing, List.nil_append, List.nil_append]
  | trans one two ih ih' =>
    rw [ih ((two.pairwise_iff fun either => either.symm).2 lone), ih' lone]

/-- Findings that may stand either way are all in one file. -/
theorem filter_findings_perm {paths order : List String} (distinct : (paths.map Text.lowercase).Nodup)
    (permuted : order.Perm paths) (diagnostic : Diagnostic) :
    (order.flatMap fun path => (linter.lintFile read language path).diagnostics).filter
        (Report.alike Report.inOrder diagnostic) =
      (paths.flatMap fun path => (linter.lintFile read language path).diagnostics).filter
        (Report.alike Report.inOrder diagnostic) := by
  -- A finding carries its path, so only one path has findings with the key of this one.
  have absent {path : String} (apart : Text.lowercase path ≠ Report.sortKey diagnostic) :
      (linter.lintFile read language path).diagnostics.filter
        (Report.alike Report.inOrder diagnostic) = [] := by
    apply List.filter_eq_nil_iff.2
    intro other member close
    have key := Report.sortKey_eq_of_alike close
    rw [Report.sortKey.eq_def other, file_of_mem_lintFile linter read language member] at key
    exact apart key.symm
  rw [List.filter_flatMap, List.filter_flatMap]
  apply flatMap_perm permuted
  apply (List.pairwise_map.1 distinct).imp
  intro path other apart
  by_cases here : Text.lowercase path = Report.sortKey diagnostic
  · exact .inr (absent fun there => apart (here.trans there.symm))
  · exact .inl (absent here)

/-- The report on files does not depend on their order. -/
theorem lintFiles_perm {paths order : List String} (distinct : (paths.map Text.lowercase).Nodup)
    (permuted : order.Perm paths) :
    linter.lintFiles read language order = linter.lintFiles read language paths := by
  have findings := Report.mergeSort_eq_of_filter_eq Report.inOrder_total Report.inOrder_trans
    (filter_findings_perm linter read language distinct permuted)
  have counts := Report.files_concat_perm (permuted.map (linter.lintFile read language))
  rw [lintFiles, lintFiles, Report.sort, Report.sort, Report.diagnostics_concat,
    Report.diagnostics_concat, List.flatMap_map, List.flatMap_map, findings, counts]

/-- Some reduction puts the reports on any files together. -/
theorem exists_reduction (paths : List String) : ∃ reduction : Reduction, reduction.paths = paths := by
  induction paths with
  | nil => exact ⟨.idle, rfl⟩
  | cons path rest ih =>
    obtain ⟨reduction, rfl⟩ := ih
    exact ⟨.both (.file path) reduction, rfl⟩

/-- Whatever way a run takes, it ends with the report on its files. -/
theorem runs_iff {paths : List String} {report : Report} :
    linter.Runs read language paths report ↔ report = linter.lintFiles read language paths := by
  constructor
  · intro runs
    cases runs with
    | sequential => rfl
    | parallel => rw [Reduction.result_eq, lintFiles]
  · rintro rfl
    by_cases alone : linter.config.jobs = 1
    · exact .sequential alone
    · obtain ⟨reduction, rfl⟩ := exists_reduction paths
      rw [lintFiles, ← Reduction.result_eq]
      exact .parallel alone

theorem lintFiles_withJobs (jobs : Nat) (paths : List String) :
    (linter.withJobs jobs).lintFiles read language paths = linter.lintFiles read language paths := rfl

/-- The report on files whose paths differ in more than case depends neither on the number of workers
and on how their reports are put together nor on the order of the files. -/
theorem runs_withJobs_iff {paths order : List String} (distinct : (paths.map Text.lowercase).Nodup)
    (permuted : order.Perm paths) (jobs : Nat) (report : Report) :
    (linter.withJobs jobs).Runs read language order report ↔
      report = linter.lintFiles read language paths := by
  rw [runs_iff, lintFiles_withJobs, lintFiles_perm linter read language distinct permuted]

end Files

/-- A linter with one rule, against paragraphs. -/
def paragraphs : Linter :=
  ofBook (RuleBook.ofRules [{
    source := "p.txt", description := none, severity := .warning, extensions := ["htm"]
    condition := ⟨[[⟨false, .along .self (.present "p")⟩]]⟩, test := ⟨[[⟨false, .fail⟩]]⟩
    message := "No paragraphs." }]) Config.standard

/-- Three workers that take two files from behind report on them in order. -/
theorem runs_reversed :
    ((["A.htm", "b.htm"].map Text.lowercase).Nodup ∧ ["b.htm", "A.htm"].Perm ["A.htm", "b.htm"]) ∧
      ∃ report, (paragraphs.withJobs 3).Runs (fun _ => some "<p/>") "en-us" ["b.htm", "A.htm"] report ∧
        report.diagnostics.map (·.file) = ["A.htm", "b.htm"] := by
  have distinct : (["A.htm", "b.htm"].map Text.lowercase).Nodup := by decide +kernel
  have permuted : ["b.htm", "A.htm"].Perm ["A.htm", "b.htm"] := .swap _ _ _
  have runs := runs_withJobs_iff paragraphs (fun _ => some "<p/>") "en-us" distinct permuted 3
  refine ⟨⟨distinct, permuted⟩, _, (runs _).2 rfl, ?_⟩
  rw [lintFiles, Report.sort, List.mergeSort_of_pairwise (by decide +kernel)]
  decide +kernel

end Linter

end TopicLint
