import TopicLint.Document.Node
import TopicLint.Rule.Basic

/-! What predicates mean on the nodes of a document, and where a rule finds fault. -/

namespace TopicLint.Rule

def View.axis : View → Axis
  | after => .followingSibling
  | ancestor => .ancestor
  | before => .precedingSibling
  | child => .child
  | descendant => .descendant
  | next => .nextSibling
  | parent => .parent
  | previous => .previousSibling
  | self => .itself

/-- The element that stands for the value of a variable. -/
def variableName : String := "MadCap:variable"

variable (doc : Document)

/-- Whether a check holds along an axis from a node. All checks but those for a style and for a
variable ask about the nearest node with the tag, which may be nothing. -/
def Check.holds (axis : Axis) (node : Node) : Check → Bool
  | present tag => (nearest tag).exists?
  | style spec => (node.alongWhere doc axis anyName (·.hasStyle doc spec)).exists?
  | empty tag => (nearest tag).exists? && (Text.trim ((nearest tag).value doc)).isEmpty
  | position tag place => (nearest tag).position == place
  | first tag => (nearest tag).documentIndex doc == 0
  | last tag => ! ((nearest tag).along doc .nextSibling anyName).exists?
  | padding tag => Text.trim ((nearest tag).text doc) != (nearest tag).text doc
  | contains tag text => Text.contains ((nearest tag).value doc) text
  | ownText tag text => Text.contains ((nearest tag).text doc) text
  | ends tag text => Text.endsWith (Text.trim ((nearest tag).value doc)) (Text.trimEnd text)
  | begins tag text => Text.startsWith (Text.trim ((nearest tag).value doc)) (Text.trimStart text)
  | hasAttribute tag name => ! (Text.trim ((nearest tag).attr doc name)).isEmpty
  | attributeEquals tag name text => (nearest tag).attr doc name == text
  | attributeContains tag name text => Text.contains ((nearest tag).attr doc name) text
  | attributeEnds tag name text =>
      Text.endsWith (Text.trim ((nearest tag).attr doc name)) (Text.trimEnd text)
  | namesVariable name =>
      (node.alongWhere doc axis variableName fun found => found.attr doc "name" == name).exists?
where
  nearest (tag : String) : Node := node.along doc axis tag

/-- Whether the answer to a question is yes at a node. -/
def Question.holds (node : Node) : Question → Bool
  | condition name => node.hasCondition doc name
  | fail => false
  | language tag => node.hasLanguage doc tag
  | snippet source => node.isSnippet doc source
  | along view check => check.holds doc view.axis node

def Predicate.holds (node : Node) (predicate : Predicate) : Bool :=
  predicate.question.holds doc node != predicate.negated

/-- Whether an expression holds at a node: on one of its lines every predicate does. -/
def Expression.holds (node : Node) (expression : Expression) : Bool :=
  expression.lines.any fun line => line.all fun predicate => predicate.holds doc node

/-- Whether a rule finds fault with a node: its condition holds there and its test does not. -/
def finds (rule : Rule) (node : Node) : Bool :=
  rule.condition.holds doc node && ! rule.test.holds doc node

end TopicLint.Rule
