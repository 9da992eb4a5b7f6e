import TopicLint.Proofs.Lint.Strictness

/-! Files keep to themselves. What a report says of a path depends on the text of that path alone, so a
file that changes moves, hides and adds no finding about another one; and a path counts as often as it
is listed, if some rule is for it, whatever becomes of its text. -/

namespace TopicLint

namespace Linter

variable (linter : Linter) (read : String → Option String) (language : String)

/-- Whether some rule is for a path. -/
def covers (path : String) : Bool := ! (linter.book.rulesForPath path).isEmpty

/-- What a report on files says of each of them. -/
structure Accounts (paths : List String) (report : Report) : Prop where
  files_eq : report.files = paths.countP linter.covers
  /-- Every finding is about a file that is looked at. -/
  covered : ∀ diagnostic ∈ report.diagnostics,
    diagnostic.file ∈ paths ∧ linter.covers diagnostic.file = true
  /-- A file that cannot be read, or is not well-formed, is reported as such each time that it is listed,
  and nothing else is said about it. -/
  unparsable : ∀ path, linter.covers path = true → (read path).bind Xml.parse = none →
    report.diagnostics.filter (·.file == path) = List.replicate (paths.count path) {
      source := "xml-parse", severity := .error, message := "This file could not be parsed as XML."
      file := path, line := 0, column := 0, element := none, context := none }

section OneRun

theorem lintFile_of_uncovered {path : String} (uncovered : linter.covers path = false) :
    linter.lintFile read language path = Report.empty := by
  rw [lintFile, if_pos (by simpa [covers] using uncovered)]

theorem lintFile_of_covered {path : String} (covered : linter.covers path = true) :
    linter.lintFile read language path = ⟨linter.lintText language path (read path), 1⟩ := by
  rw [lintFile, if_neg (by simpa [covers] using covered)]

theorem files_lintFile (path : String) :
    (linter.lintFile read language path).files = if linter.covers path then 1 else 0 := by
  by_cases covered : linter.covers path = true
  · rw [lintFile_of_covered linter read language covered, if_pos covered]
  · rw [lintFile_of_uncovered linter read language (by simpa using covered), if_neg covered]
    rfl

/-- Each file is counted as often as it is listed. -/
theorem files_lintFiles (paths : List String) :
    (linter.lintFiles read language paths).files = paths.countP linter.covers := by
  show (Report.concat (paths.map (linter.lintFile read language))).files = _
  induction paths with
  | nil => rfl
  | cons path rest ih =>
    rw [List.map_cons, Report.files_concat_cons, ih, files_lintFile, List.countP_cons, Nat.add_comm]

theorem mem_lintFiles_iff {paths : List String} {diagnostic : Diagnostic} :
    diagnostic ∈ (linter.lintFiles read language paths).diagnostics ↔
      ∃ path ∈ paths, diagnostic ∈ (linter.lintFile read language path).diagnostics := by
  rw [lintFiles, Report.sort, List.mem_mergeSort, Report.diagnostics_concat, List.flatMap_map,
    List.mem_flatMap]

/-- The findings about one file are those of looking at it alone, as often as it is listed. -/
theorem filter_lintFiles (paths : List String) (path : String) :
    (linter.lintFiles read language paths).diagnostics.filter (·.file == path) =
      (List.replicate (paths.count path)
        (linter.lintFile read language path).diagnostics).flatten.mergeSort Report.inOrder := by
  rw [lintFiles, Report.sort, Report.filter_mergeSort_comm Report.inOrder_total Report.inOrder_trans,
    Report.diagnostics_concat, List.flatMap_map]
  rw [Report.filter_flatMap_own fun path diagnostic => file_of_mem_lintFile linter read language]

theorem mergeSort_replicate (count : Nat) (diagnostic : Diagnostic) :
    (List.replicate count diagnostic).mergeSort Report.inOrder = List.replicate count diagnostic := by
  apply List.mergeSort_of_pairwise
  apply List.pairwise_replicate.2
  have either := Report.inOrder_total diagnostic diagnostic
  rw [Bool.or_self] at either
  exact .inr either

theorem accounts_lintFiles (paths : List String) :
    linter.Accounts read paths (linter.lintFiles read language paths) where
  files_eq := linter.files_lintFiles read language paths
  covered diagnostic member := by
    obtain ⟨path, listed, told⟩ := (linter.mem_lintFiles_iff read language).1 member
    have here := file_of_mem_lintFile linter read language told
    cases covered : linter.covers path with
    | true => exact ⟨here ▸ listed, here ▸ covered⟩
    | false =>
      rw [lintFile_of_uncovered linter read language covered] at told
      cases told
  unparsable path covered broken := by
    have alone : (linter.lintFile read language path).diagnostics = [Diagnostic.unparsable path] := by
      rw [lintFile_of_covered linter read language covered, lintText, broken]
    rw [filter_lintFiles, alone, List.flatten_replicate_singleton, mergeSort_replicate]
    rfl

end OneRun

section TwoRuns

variable {read other : String → Option String} {touched : String → Bool}

/-- A file whose text is the same in both runs is reported alike, and one that is touched is counted
alike. -/
theorem lintFile_only {path : String} (kept : touched path = false → read path = other path) :
    (linter.lintFile read language path).only (! touched ·.file) =
      (linter.lintFile other language path).only (! touched ·.file) := by
  cases here : touched path with
  | false =>
    unfold lintFile
    rw [kept here]
  | true =>
    have nothing (read : String → Option String) :
        (linter.lintFile read language path).diagnostics.filter (! touched ·.file) = [] := by
      apply List.filter_eq_nil_iff.2
      intro diagnostic member
      rw [file_of_mem_lintFile linter read language member, here]
      exact Bool.false_ne_true
    rw [Report.only, Report.only, nothing, nothing, files_lintFile, files_lintFile]

theorem lintFiles_only {paths : List String}
    (kept : ∀ path ∈ paths, touched path = false → read path = other path) :
    (linter.lintFiles read language paths).only (! touched ·.file) =
      (linter.lintFiles other language paths).only (! touched ·.file) := by
  have same : paths.map ((Report.only (! touched ·.file)) ∘ linter.lintFile read language) =
      paths.map ((Report.only (! touched ·.file)) ∘ linter.lintFile other language) :=
    List.map_congr_left fun path member => linter.lintFile_only language (kept path member)
  simp only [lintFiles, Report.only_sort, Report.only_concat, List.map_map, same]

/-- Two runs on the same files in which only some of them, the touched ones, may have other texts: they
say the same of the others in the same order, and count the same number of files. Each of the runs
accounts for its files. -/
theorem runs_apart {paths : List String}
    (kept : ∀ path ∈ paths, touched path = false → read path = other path) {report report' : Report}
    (runs : linter.Runs read language paths report) (runs' : linter.Runs other language paths report') :
    (report.diagnostics.filter (! touched ·.file) = report'.diagnostics.filter (! touched ·.file) ∧
      report.files = report'.files) ∧
    linter.Accounts read paths report ∧ linter.Accounts other paths report' := by
  rw [(linter.runs_iff read language).1 runs, (linter.runs_iff other language).1 runs']
  have same := linter.lintFiles_only language kept
  rw [Report.only, Report.only, Report.mk.injEq] at same
  exact ⟨same,
    linter.accounts_lintFiles read language paths, linter.accounts_lintFiles other language paths⟩

end TwoRuns

/-- Of two files, the one that is listed twice breaks between two runs of three workers. A third file,
which no rule is for, cannot be read. -/
theorem runs_apart_broken :
    let paths := ["a.htm", "b.htm", "b.htm", "c.txt"]
    let read := fun path => if path = "c.txt" then none else some "<p/>"
    let other := fun path => if path = "b.htm" then some "<p>" else read path
    (∀ path ∈ paths, (path == "b.htm") = false → read path = other path) ∧
      ∃ report report', (paragraphs.withJobs 3).Runs read "en-us" paths report ∧
        (paragraphs.withJobs 3).Runs other "en-us" paths report' ∧
        report.diagnostics.filter (! ·.file == "b.htm") = report'.diagnostics.filter (! ·.file == "b.htm") ∧
        report.files = 3 ∧ report'.files = 3 ∧
        (report.diagnostics.map fun finding => (finding.file, finding.source)) =
          [("a.htm", "p.txt"), ("b.htm", "p.txt"), ("b.htm", "p.txt")] ∧
        (report'.diagnostics.map fun finding => (finding.file, finding.source)) =
          [("a.htm", "p.txt"), ("b.htm", "xml-parse"), ("b.htm", "xml-parse")] := by
  intro paths read other
  have kept : ∀ path ∈ paths, (path == "b.htm") = false → read path = other path := by decide
  have ran (texts : String → Option String) : (paragraphs.withJobs 3).Runs texts "en-us" paths
      ((paragraphs.withJobs 3).lintFiles texts "en-us" paths) :=
    ((paragraphs.withJobs 3).runs_iff texts "en-us").2 rfl
  obtain ⟨⟨same, counted⟩, accounts, -⟩ :=
    (paragraphs.withJobs 3).runs_apart "en-us" kept (ran read) (ran other)
  have three : paths.countP (paragraphs.withJobs 3).covers = 3 := by decide +kernel
  have files := accounts.files_eq.trans three
  refine ⟨kept, _, _, ran read, ran other, same, files, counted.symm.trans files, ?_, ?_⟩
  · rw [lintFiles, Report.sort, List.mergeSort_of_pairwise (by decide +kernel)]
    decide +kernel
  · rw [lintFiles, Report.sort, List.mergeSort_of_pairwise (by decide +kernel)]
    decide +kernel

end Linter

end TopicLint
