import TopicLint.Text.Search

/-! Names of elements and attributes. A name has a namespace or none; it is looked up by its
expanded form, `{namespace}local`, and shown with a prefix if its namespace is the one that topics
use for their own elements. Rules and queries may write both known prefixes. -/

namespace TopicLint

/-- A name in a namespace, or in none. -/
structure Name where
  space : Option String
  base : String
  deriving DecidableEq, Repr

namespace Name

/-- The namespace of the elements and attributes that belong to topics only. -/
def topicSpace : String := "http://www.madcapsoftware.com/Schemas/MadCap.xsd"

def xmlSpace : String := "http://www.w3.org/XML/1998/namespace"

/-- The prefixes that rules and queries may write, with their namespaces. -/
def knownPrefixes : List (String × String) := [("MadCap", topicSpace), ("xml", xmlSpace)]

def inSpace (space base : String) : String := "\x7b" ++ space ++ "\x7d" ++ base

def expanded (name : Name) : String :=
  match name.space with
  | some space => inSpace space name.base
  | none => name.base

def shown (name : Name) : String :=
  if name.space = some topicSpace then "MadCap:" ++ name.base else name.expanded

/-- The expanded form of a name as rules and queries write it. A prefix that is not known is part
of the name. -/
def expand (written : String) : String :=
  match Text.cutFirst? ':' written with
  | none => written
  | some (first, rest) =>
      match knownPrefixes.lookup first with
      | some space => inSpace space rest
      | none => written

end Name

end TopicLint
