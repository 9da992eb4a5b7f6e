import TopicLint.Document.Node
import TopicLint.Severity

/-! Findings of rules, detached from the document: where they are, what they say, and how to
recognise the element they are about. -/

namespace TopicLint

/-- What to look for to recognise an element. -/
inductive Context where
  /-- The first words of its text or of an attribute that describes it. -/
  | excerpt (text : String)
  | reference (target : String)
  deriving DecidableEq, Repr

namespace Context

def wordLimit : Nat := 8

def charLimit : Nat := 50

/-- The attributes that describe an element, in order of preference. -/
def describing : List String := ["alt", "title", "Title", "Comment"]

/-- The attributes that say what an element links to, in order of preference. -/
def linking : List String := ["href", "src", "Link"]

/-- The first words of a text, with single spaces between them. -/
def firstWords (text : String) : String :=
  String.ofList ((" ".intercalate ((Text.words text).take wordLimit)).toList.take charLimit)

def firstText (texts : List String) : Option String :=
  (texts.map Text.trim).find? fun text => ! text.isEmpty

/-- What to look for to recognise the element of a node. -/
def describe (doc : Document) (node : Node) : Option Context :=
  match node with
  | .nothing => none
  | .found .. =>
      match firstText (node.value doc :: describing.map fun name => node.attr doc name) with
      | some text => some (.excerpt (firstWords text))
      | none => (firstText (linking.map fun name => node.attr doc name)).map .reference

end Context

structure Diagnostic where
  source : String
  severity : Severity
  message : String
  file : String
  line : Nat
  column : Nat
  element : Option String
  context : Option Context
  deriving DecidableEq, Repr

namespace Diagnostic

/-- The source of findings about files that are not well-formed. -/
def parseSource : String := "xml-parse"

/-- What is said about files that are not well-formed. -/
def parseMessage : String := "This file could not be parsed as XML."

def unparsable (file : String) : Diagnostic where
  source := parseSource
  severity := .error
  message := parseMessage
  file := file
  line := 0
  column := 0
  element := none
  context := none

def ofNode (doc : Document) (source : String) (severity : Severity) (message file : String)
    (node : Node) : Diagnostic where
  source := source
  severity := severity
  message := message
  file := file
  line := node.line doc
  column := node.column doc
  element := if node.exists? then some (node.name doc) else none
  context := Context.describe doc node

end Diagnostic

end TopicLint
