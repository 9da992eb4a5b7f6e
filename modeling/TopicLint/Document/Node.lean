import TopicLint.Document.Basic
import TopicLint.Text.Blank
import TopicLint.Text.Lowercase

/-! Queries on documents. A node is an element together with its place in the walk that found it,
or nothing; every step from nothing leads to nothing, and nothing has no name, no text and no
attributes, so that queries can be chained. -/

namespace TopicLint

/-- The directions in which a query walks, each with an order. -/
inductive Axis where
  | child
  | parent
  | ancestorOrSelf
  | ancestor
  | descendantOrSelf
  | descendant
  | precedingSibling
  | followingSibling
  | previousSibling
  | nextSibling
  | itself
  deriving DecidableEq, Repr

/-- An element found by a query, with its place in the walk, or nothing. -/
inductive Node where
  | nothing
  | found (id : Nat) (place : Nat)
  deriving DecidableEq, Repr

def anyName : String := "*"

namespace Document

def root (_ : Document) : Node := .found 0 0

/-- The elements of a document in order, each as the first of a walk. -/
def nodes (doc : Document) : List Node := (List.range doc.size).map fun id => .found id 0

def nodeAt (doc : Document) (id : Nat) : Node := if id < doc.size then .found id 0 else .nothing

/-- The elements that an axis leads to, nearest first. -/
def walk (doc : Document) (id : Nat) : Axis → List Nat
  | .child => doc.children id
  | .parent => (doc.parent? id).toList
  | .ancestorOrSelf => id :: doc.ancestors id
  | .ancestor => doc.ancestors id
  | .descendantOrSelf => List.range' id (stop - id)
  | .descendant => List.range' (id + 1) (stop - (id + 1))
  | .precedingSibling => ((doc.siblings id).take index).reverse
  | .followingSibling => (doc.siblings id).drop (index + 1)
  | .previousSibling => ((doc.siblings id).take index).getLast?.toList
  | .nextSibling => ((doc.siblings id).drop (index + 1)).head?.toList
  | .itself => [id]
where
  stop := ((doc.element? id).map (·.stop)).getD 0
  index := ((doc.element? id).map (·.index)).getD 0

end Document

namespace Node

def exists? : Node → Bool
  | nothing => false
  | found .. => true

def id? : Node → Option Nat
  | nothing => none
  | found id _ => some id

def position : Node → Int
  | nothing => -1
  | found _ place => place

variable (doc : Document)

def element? : Node → Option Element
  | nothing => none
  | found id _ => doc.element? id

def name (node : Node) : String := ((node.element? doc).map (·.name)).getD ""

/-- Whether the element has a name that may be written with a known prefix. -/
def matchesName (filter : String) (node : Node) : Bool :=
  match node.element? doc with
  | none => false
  | some element => filter == anyName || element.tag == Name.expand filter

/-- The value of an attribute, or nothing if it is missing. -/
def attr (name : String) (node : Node) : String :=
  ((node.element? doc).bind fun element => element.attributes.lookup (Name.expand name)).getD ""

def text (node : Node) : String :=
  String.join <| (((node.element? doc).map (·.content)).getD []).map fun
    | .text run => run
    | .element _ => ""

def value : Node → String
  | nothing => ""
  | found id _ => String.ofList (doc.value id)

/-- How many siblings stand before the element, or -1 for nothing. -/
def documentIndex (node : Node) : Int := ((node.element? doc).map fun e => (e.index : Int)).getD (-1)

def line (node : Node) : Nat := ((node.element? doc).map (·.line)).getD 0

def column (node : Node) : Nat := ((node.element? doc).map (·.column)).getD 0

/-- The first of the candidates that matches the name and is accepted. Its place counts the
candidates before it that match the name, accepted or not. -/
def firstMatch (filter : String) (accept : Node → Bool) : Nat → List Nat → Node
  | _, [] => nothing
  | place, id :: rest =>
      if (found id place).matchesName doc filter then
        if accept (found id place) then found id place
        else firstMatch filter accept (place + 1) rest
      else firstMatch filter accept place rest

/-- The nearest node along an axis that matches a name and is accepted. The axis that stays at the
node keeps the place that the node has. -/
def alongWhere (axis : Axis) (filter : String) (accept : Node → Bool) : Node → Node
  | nothing => nothing
  | found id place =>
      if axis = .itself then
        if (found id place).matchesName doc filter && accept (found id place) then found id place
        else nothing
      else firstMatch doc filter accept 0 (doc.walk id axis)

/-- The nearest node along an axis that matches a name. -/
def along (axis : Axis) (filter : String) (node : Node) : Node :=
  node.alongWhere doc axis filter fun _ => true

/-- Whether the element has a style, written `tag.class`; either part may be missing, and without
a class the element must have none. -/
def hasStyle (spec : String) (node : Node) : Bool :=
  let parts := Text.split (· = '.') spec
  let tag := parts.headD ""
  node.exists? && (tag.isEmpty || tag == node.name doc) &&
    parts.getD 1 "" == node.attr doc "class"

/-- The language at the element: that of the nearest element around it that declares one. -/
def languageAt (node : Node) : String :=
  let carrier := node.alongWhere doc .ancestorOrSelf anyName fun around =>
    ! (around.attr doc "xml:lang").isEmpty
  if carrier.exists? then carrier.attr doc "xml:lang" else doc.defaultLanguage

/-- Whether the language at the element starts with a tag, in whatever case. -/
def hasLanguage (tag : String) (node : Node) : Bool :=
  node.exists? && Text.startsWith (Text.lowercase (node.languageAt doc)) (Text.lowercase tag)

/-- The conditions of an element: its attribute cut at commas, semicolons and blanks. -/
def ownConditions (node : Node) : List String :=
  Text.split (fun c => c = ',' || c = ';' || Text.isBlank c) (node.attr doc "MadCap:conditions")

/-- Whether the element or one around it carries a condition. -/
def hasCondition (name : String) (node : Node) : Bool :=
  (node.alongWhere doc .ancestorOrSelf anyName fun around =>
    (around.ownConditions doc).contains name).exists?

def snippetNames : List String := ["MadCap:snippetBlock", "MadCap:snippetText"]

/-- Whether the element inserts the snippet of a file. -/
def isSnippet (source : String) (node : Node) : Bool :=
  snippetNames.any fun name =>
    (node.alongWhere doc .itself name fun here => here.attr doc "src" == source).exists?

end Node

end TopicLint
