/-! How grave a rule calls what it finds. -/

namespace TopicLint

inductive Severity where
  | warning
  | error
  deriving DecidableEq, Repr

namespace Severity

/-- The word for a severity, in rule files, configurations and reports. -/
def name : Severity → String
  | warning => "warning"
  | error => "error"

def ofName? (word : String) : Option Severity :=
  [warning, error].find? fun severity => severity.name == word

/-- A rule that does not say otherwise reports errors. -/
def standard : Severity := .error

/-- Whether a severity is at least another one; an error is graver than a warning. -/
def atLeast : Severity → Severity → Bool
  | error, _ => true
  | warning, least => least == warning

theorem ofName?_name (severity : Severity) : ofName? severity.name = some severity := by
  cases severity <;> decide

end Severity

end TopicLint
