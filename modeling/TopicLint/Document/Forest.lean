import TopicLint.Document.Name

/-! The content of an element as a tree: a forest of elements, runs of text, and notes, which stand
for comments and processing instructions. A forest starts with one item and goes on with the
forest of the items behind it. -/

namespace TopicLint

structure Tag where
  name : Name
  attributes : List (Name × String)
  line : Nat
  column : Nat
  deriving DecidableEq, Repr

/-- The items inside an element, in order. -/
inductive Forest where
  | nil
  | text (run : String) (rest : Forest)
  | note (rest : Forest)
  | element (tag : Tag) (inner : Forest) (rest : Forest)
  deriving DecidableEq, Repr

/-- A document as a tree: its root element and what is inside. -/
structure Tree where
  tag : Tag
  inner : Forest
  deriving DecidableEq, Repr

namespace Forest

/-- The items of one forest followed by those of another. -/
def append : Forest → Forest → Forest
  | nil, other => other
  | text run rest, other => text run (append rest other)
  | note rest, other => note (append rest other)
  | element tag inner rest, other => element tag inner (append rest other)

/-- A forest in reverse at the top, put in front of another. What is inside elements stays. -/
def reverseOnto : Forest → Forest → Forest
  | nil, other => other
  | text run rest, other => reverseOnto rest (text run other)
  | note rest, other => reverseOnto rest (note other)
  | element tag inner rest, other => reverseOnto rest (element tag inner other)

end Forest

end TopicLint
