import TopicLint.Rule.Quoted

/-! The predicates of rule files as data, and their text. A predicate looks from a node along a
view and checks the node it finds there, or asks something of the node itself; it may be negated. -/

namespace TopicLint.Rule

/-- Where a predicate looks, seen from the node a rule is tried on. -/
inductive View where
  | after
  | ancestor
  | before
  | child
  | descendant
  | next
  | parent
  | previous
  | self
  deriving DecidableEq, Repr

namespace View

def all : List View := [after, ancestor, before, child, descendant, next, parent, previous, self]

def keyword : View → String
  | after => "after"
  | ancestor => "ancestor"
  | before => "before"
  | child => "child"
  | descendant => "descendant"
  | next => "next"
  | parent => "parent"
  | previous => "previous"
  | self => "self"

def ofKeyword? (word : String) : Option View := all.find? fun view => view.keyword == word

theorem ofKeyword?_keyword (view : View) : ofKeyword? view.keyword = some view := by
  cases view <;> decide

end View

/-- What a predicate checks of the node found along its view. -/
inductive Check where
  | present (tag : String)
  | style (spec : String)
  /-- The node exists and holds nothing but blanks. -/
  | empty (tag : String)
  /-- The node has the given place in the walk. -/
  | position (tag : String) (place : Nat)
  | first (tag : String)
  | last (tag : String)
  /-- The node's own text starts or ends with a blank. -/
  | padding (tag : String)
  /-- The text of the node's subtree holds the text. -/
  | contains (tag text : String)
  | ownText (tag text : String)
  /-- The text of the node's subtree ends with the text, up to blanks. -/
  | ends (tag text : String)
  /-- The text of the node's subtree begins with the text, up to blanks. -/
  | begins (tag text : String)
  /-- The node has an attribute that is not blank. -/
  | hasAttribute (tag name : String)
  | attributeEquals (tag name text : String)
  | attributeContains (tag name text : String)
  /-- The node's attribute ends with the text, up to blanks. -/
  | attributeEnds (tag name text : String)
  /-- Some reference along the view names the variable. -/
  | namesVariable (name : String)
  deriving DecidableEq, Repr

/-- The arguments that a check takes in rule files, with the check they give. -/
inductive Form where
  | tag (check : String → Check)
  | tagNumber (check : String → Nat → Check)
  | tagQuote (check : String → String → Check)
  | tagName (check : String → String → Check)
  | tagNameQuote (check : String → String → String → Check)
  | name (check : String → Check)

namespace Check

/-- The checks by the word that follows the view in rule files. -/
def forms : List (String × Form) := [
  ("", .tag present), ("style", .tag style), ("empty", .tag empty),
  ("position", .tagNumber position), ("first", .tag first), ("last", .tag last),
  ("padding", .tag padding), ("contains", .tagQuote contains), ("text", .tagQuote ownText),
  ("ends", .tagQuote ends), ("begins", .tagQuote begins), ("attribute", .tagName hasAttribute),
  ("attribute-equals", .tagNameQuote attributeEquals),
  ("attribute-contains", .tagNameQuote attributeContains),
  ("attribute-ends", .tagNameQuote attributeEnds), ("variable", .name namesVariable)]

/-- The word for a check in rule files; the check for presence has none. -/
def keyword : Check → String
  | present _ => ""
  | style _ => "style"
  | empty _ => "empty"
  | position .. => "position"
  | first _ => "first"
  | last _ => "last"
  | padding _ => "padding"
  | contains .. => "contains"
  | ownText .. => "text"
  | ends .. => "ends"
  | begins .. => "begins"
  | hasAttribute .. => "attribute"
  | attributeEquals .. => "attribute-equals"
  | attributeContains .. => "attribute-contains"
  | attributeEnds .. => "attribute-ends"
  | namesVariable _ => "variable"

def arguments : Check → List String
  | present tag | empty tag | first tag | last tag | padding tag => [tag]
  | style spec => [spec]
  | position tag place => [tag, toString place]
  | contains tag text | ownText tag text | ends tag text | begins tag text => [tag, Quoted.quote text]
  | hasAttribute tag name => [tag, name]
  | attributeEquals tag name text | attributeContains tag name text
  | attributeEnds tag name text => [tag, name, Quoted.quote text]
  | namesVariable name => [name]

end Check

/-- What a predicate asks, negation apart. -/
inductive Question where
  /-- The node or a node around it carries a condition. -/
  | condition (name : String)
  | fail
  /-- The language at the node starts with a tag. -/
  | language (tag : String)
  /-- The node is a reference to a snippet file. -/
  | snippet (source : String)
  | along (view : View) (check : Check)
  deriving DecidableEq, Repr

def Question.wording : Question → List String
  | condition name => ["condition", name]
  | fail => ["fail"]
  | language tag => ["language", tag]
  | snippet source => ["snippet", Quoted.quote source]
  | along view check =>
      (if check.keyword.isEmpty then view.keyword else view.keyword ++ "-" ++ check.keyword) ::
        check.arguments

/-- A question, possibly negated. -/
structure Predicate where
  negated : Bool
  question : Question
  deriving DecidableEq, Repr

namespace Predicate

/-- The predicate that holds where this one does not. -/
def negate (predicate : Predicate) : Predicate := { predicate with negated := ! predicate.negated }

def text (predicate : Predicate) : String :=
  " ".intercalate ((if predicate.negated then ["not"] else []) ++ predicate.question.wording)

end Predicate

end TopicLint.Rule
