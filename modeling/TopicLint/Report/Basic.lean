import TopicLint.Report.Diagnostic
import TopicLint.Text.Lowercase
import TopicLint.Text.Order

/-! Reports: the findings of a run and the number of files it looked at. Reports of parts of a run
are put together in the order of the parts; sorting comes last and keeps the order of findings that
agree in file and line. -/

namespace TopicLint

/-- The outcome of looking at some files. -/
structure Report where
  diagnostics : List Diagnostic
  files : Nat
  deriving DecidableEq, Repr

namespace Report

def empty : Report := ⟨[], 0⟩

/-- The report on the files of one report and then of another. -/
def append (first second : Report) : Report :=
  ⟨first.diagnostics ++ second.diagnostics, first.files + second.files⟩

instance : Append Report := ⟨append⟩

/-- The report on the files of some reports, in their order. -/
def concat (reports : List Report) : Report := reports.foldl append empty

def count (report : Report) (severity : Severity) : Nat :=
  report.diagnostics.countP fun diagnostic => diagnostic.severity == severity

/-- What a run ends with: 2 if there are errors, 1 if there are only warnings, 0 otherwise. -/
def exitCode (report : Report) : Nat :=
  if 0 < report.count .error then 2 else if 0 < report.count .warning then 1 else 0

/-- The file of a finding as it is ordered, without regard to case. -/
def sortKey (diagnostic : Diagnostic) : String := Text.lowercase diagnostic.file

/-- Whether a finding may stand before another one: its file comes first, or the files agree and
its line is not below. -/
def inOrder (first second : Diagnostic) : Bool :=
  if sortKey first = sortKey second then decide (first.line ≤ second.line)
  else Text.atMost (sortKey first) (sortKey second)

/-- The report with its findings ordered by file and line. -/
def sort (report : Report) : Report :=
  { report with diagnostics := report.diagnostics.mergeSort inOrder }

theorem empty_append (report : Report) : empty.append report = report := by
  simp [append, empty]

theorem append_empty (report : Report) : report.append empty = report := by
  simp [append, empty]

theorem append_assoc (a b c : Report) : (a.append b).append c = a.append (b.append c) := by
  simp [append, Nat.add_assoc]

end Report

end TopicLint
