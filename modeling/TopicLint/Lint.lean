import TopicLint.Config.Basic
import TopicLint.Report.Basic
import TopicLint.Rule.Book
import TopicLint.Rule.Evaluate
import TopicLint.Xml.Build

/-! Linting: the rules of a book are tried on every element of a document. Files are looked at one by
one, and what is found in a file depends on its text alone. -/

namespace TopicLint

/-- The rules to try, and what to do with what they find. -/
structure Linter where
  book : RuleBook
  config : Config

namespace Linter

/-- The linter for the rules of a book that a configuration does not disable. -/
def ofBook (book : RuleBook) (config : Config) : Linter where
  book := book.retain fun rule => config.enables rule.source
  config := config

/-- Whether a rule has something to report on a node. -/
def speaks (linter : Linter) (doc : Document) (node : Node) (rule : Rule) : Bool :=
  rule.finds doc node && linter.config.reports rule.severity

/-- What some rules report on a node, in the order of the rules. -/
def findings (linter : Linter) (doc : Document) (path : String) (rules : List Rule) (node : Node) :
    List Diagnostic :=
  (rules.filter (linter.speaks doc node)).map fun rule =>
    Diagnostic.ofNode doc rule.source rule.severity rule.message path node

/-- What the rules for a path report on a document, in document order. -/
def lintDocument (linter : Linter) (doc : Document) (path : String) : List Diagnostic :=
  doc.nodes.flatMap (linter.findings doc path (linter.book.rulesForPath path))

/-- What is reported on a file with a text. `none` stands for a file that cannot be read; it is
reported as one that is not well-formed. -/
def lintText (linter : Linter) (language path : String) (text : Option String) : List Diagnostic :=
  match text.bind Xml.parse with
  | some tree => linter.lintDocument (Document.ofTree tree language) path
  | none => [Diagnostic.unparsable path]

/-- The report on one file. A file that no rule is for is not looked at. `read` gives the texts of
files. -/
def lintFile (linter : Linter) (read : String → Option String) (language path : String) : Report :=
  if (linter.book.rulesForPath path).isEmpty then Report.empty
  else ⟨linter.lintText language path (read path), 1⟩

def lintFiles (linter : Linter) (read : String → Option String) (language : String)
    (paths : List String) : Report :=
  (Report.concat (paths.map (linter.lintFile read language))).sort

end Linter

end TopicLint
