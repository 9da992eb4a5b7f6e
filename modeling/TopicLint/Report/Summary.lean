import TopicLint.Report.Basic

/-! The one line that says how many files a report is about and how many findings it holds. -/

namespace TopicLint.Report

/-- A number and a noun, which takes an `s` unless the number is one. -/
def counted (n : Nat) (noun : String) : String :=
  toString n ++ " " ++ noun ++ (if n = 1 then "" else "s")

def summary (report : Report) : String :=
  let errors := report.count .error
  let warnings := report.count .warning
  if errors = 0 ∧ warnings = 0 then "No issues found in " ++ counted report.files "file"
  else "Found " ++ counted errors "error" ++ " and " ++ counted warnings "warning" ++ " in "
    ++ counted report.files "file"

end TopicLint.Report
