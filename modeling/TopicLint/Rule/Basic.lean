import TopicLint.Severity
import TopicLint.Rule.Predicate

/-! A rule, and the expressions that decide where it applies and what it asks. -/

namespace TopicLint

namespace Rule

/-- A list of conjunctions: an expression holds where all predicates of one of its lines hold. -/
structure Expression where
  lines : List (List Predicate)
  deriving DecidableEq, Repr

/-- The text of an expression: a line for each conjunction. -/
def Expression.text (expression : Expression) : String :=
  "\n".intercalate (expression.lines.map fun line => " and ".intercalate (line.map (·.text)))

end Rule

/-- A rule: the nodes where its condition holds have to pass its test. -/
structure Rule where
  /-- The name of the file that states the rule. -/
  source : String
  description : Option String
  severity : Severity
  /-- The extensions of the files that the rule is for, as they are written. -/
  extensions : List String
  condition : Rule.Expression
  test : Rule.Expression
  /-- What to tell the writer of a node that fails, with markup. -/
  message : String
  deriving DecidableEq, Repr

end TopicLint
