import TopicLint.Files.Path
import TopicLint.Rule.Basic
import TopicLint.Text.Order
import TopicLint.Text.Search

/-! Rule books: rules in the order they were added, and an index from file extensions to the rules
for them. -/

namespace TopicLint

structure RuleBook where
  rules : List Rule
  /-- For each extension without its leading dot the rules that list it, in the order they were
  added, once for each time they list it. -/
  index : List (String × List Rule)
  deriving Repr

namespace RuleBook

def empty : RuleBook := ⟨[], []⟩

def key (extension : String) : String :=
  match extension.toList with
  | '.' :: rest => String.ofList rest
  | _ => extension

/-- Puts a rule behind the ones that an index holds for a key. -/
def insert (rule : Rule) (key : String) : List (String × List Rule) → List (String × List Rule)
  | [] => [(key, [rule])]
  | (known, rules) :: rest =>
      if known = key then (known, rules ++ [rule]) :: rest
      else (known, rules) :: insert rule key rest

def add (book : RuleBook) (rule : Rule) : RuleBook where
  rules := book.rules ++ [rule]
  index := rule.extensions.foldl (fun index extension => insert rule (key extension) index)
    book.index

def ofRules (rules : List Rule) : RuleBook := rules.foldl add empty

def lookup (book : RuleBook) (key : String) : List Rule :=
  ((book.index.find? fun entry => entry.1 == key).map (·.2)).getD []

/-- The rules for an extension, which may be given with a dot or as a file name. -/
def rulesFor (book : RuleBook) (name : String) : List Rule := book.lookup (Text.afterLast '.' name)

/-- The rules for the extension of a path. A path without extension has none. -/
def rulesForPath (book : RuleBook) (path : String) : List Rule :=
  match Path.extension path with
  | some extension => book.rulesFor extension
  | none => []

def retain (book : RuleBook) (keep : Rule → Bool) : RuleBook := ofRules (book.rules.filter keep)

def extensions (book : RuleBook) : List String := (book.index.map (·.1)).mergeSort Text.atMost

end RuleBook

end TopicLint
