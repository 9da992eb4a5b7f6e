import TopicLint.Document.Forest

/-! Documents. A document numbers the elements of a tree in the order of their start tags, the
root being number 0. So the elements of a subtree have consecutive numbers, from that of its top
up to, and without, the number where it stops. -/

namespace TopicLint

/-- A piece of what is inside an element: a run of text, or the number of an element. -/
inductive Content where
  | text (run : String)
  | element (id : Nat)
  deriving DecidableEq, Repr

structure Element where
  /-- The expanded name. -/
  tag : String
  name : String
  /-- The attributes by expanded name, in the order of the source. -/
  attributes : List (String × String)
  /-- What is inside, in order. Text that only notes interrupt is one run. -/
  content : List Content
  /-- The numbers of the elements directly inside. -/
  children : List Nat
  /-- How many siblings stand before it. -/
  index : Nat
  /-- The number behind the last element of its subtree. -/
  stop : Nat
  line : Nat
  column : Nat
  deriving DecidableEq, Repr

/-- What has been read inside an element, itself apart. -/
structure Inside where
  content : Array Content
  children : Array Nat

namespace Inside

def empty : Inside := ⟨#[], #[]⟩

/-- A run of text behind another one goes on with it. -/
def addText (run : String) (inside : Inside) : Inside :=
  match inside.content.back? with
  | some (.text previous) =>
      { inside with content := inside.content.pop.push (.text (previous ++ run)) }
  | _ => { inside with content := inside.content.push (.text run) }

def addElement (id : Nat) (inside : Inside) : Inside :=
  ⟨inside.content.push (.element id), inside.children.push id⟩

end Inside

/-- The element that a start tag opens under a number. Nothing is inside yet. -/
def Tag.opened (tag : Tag) (id index : Nat) : Element where
  tag := tag.name.expanded
  name := tag.name.shown
  attributes := tag.attributes.map fun (name, value) => (name.expanded, value)
  content := []
  children := []
  index := index
  stop := id + 1
  line := tag.line
  column := tag.column

def Element.closed (inside : Inside) (stop : Nat) (element : Element) : Element :=
  { element with content := inside.content.toList, children := inside.children.toList, stop }

/-- Puts the elements of a forest behind those there are, and what stands at its top behind what has
been read inside its element. An element is put in its place first and closed after its inside. -/
def Forest.read : Forest → Array Element → Inside → Array Element × Inside
  | .nil, elements, inside => (elements, inside)
  | .text run rest, elements, inside => rest.read elements (inside.addText run)
  | .note rest, elements, inside => rest.read elements inside
  | .element tag inner rest, elements, inside =>
      let id := elements.size
      let (filled, within) := inner.read (elements.push (tag.opened id inside.children.size)) .empty
      let stop := filled.size
      rest.read (filled.modify id (·.closed within stop)) (inside.addElement id)

def enterChildren (id : Nat) (children : List Nat) (parents : Array (Option Nat)) :
    Array (Option Nat) :=
  children.foldl (fun parents child => parents.setIfInBounds child (some id)) parents

/-- Enters elements, of which the first has the given number, as the parents of their children. -/
def enterParents (id : Nat) : List Element → Array (Option Nat) → Array (Option Nat)
  | [], parents => parents
  | element :: rest, parents =>
      enterParents (id + 1) rest (enterChildren id element.children parents)

/-- A document: its elements in order, the parent of each, and the language that holds where none is
declared. -/
structure Document where
  elements : Array Element
  parents : Array (Option Nat)
  defaultLanguage : String

namespace Document

/-- The language of topics when neither they nor their project name one. -/
def standardLanguage : String := "en-us"

/-- The document of a tree. The parents are found once all elements are there. -/
def ofTree (tree : Tree) (defaultLanguage : String) : Document :=
  let elements := ((Forest.element tree.tag tree.inner .nil).read #[] .empty).1
  let parents := enterParents 0 elements.toList (Array.replicate elements.size none)
  { elements, parents, defaultLanguage }

def size (doc : Document) : Nat := doc.elements.size

def element? (doc : Document) (id : Nat) : Option Element := doc.elements[id]?

/-- The number of the element that the element with a number is directly inside. -/
def parent? (doc : Document) (id : Nat) : Option Nat := doc.parents[id]?.join

/-- The numbers of the elements directly inside an element. -/
def children (doc : Document) (id : Nat) : List Nat := ((doc.element? id).map (·.children)).getD []

/-- The numbers of an element and its siblings. The root is its only sibling. -/
def siblings (doc : Document) (id : Nat) : List Nat :=
  match doc.parent? id with
  | some parent => doc.children parent
  | none => [0]

/-- The parent of an element, the parent of that, and so on to the root. -/
def ancestors (doc : Document) (id : Nat) : List Nat :=
  match doc.parent? id with
  | some parent => if parent < id then parent :: doc.ancestors parent else []
  | none => []
  termination_by id

/-- All text inside an element, at every depth, in order. -/
def value (doc : Document) (id : Nat) : List Char :=
  ((doc.element? id).map (·.content)).getD [] |>.flatMap fun
    | .text run => run.toList
    | .element child => if id < child ∧ child < doc.size then doc.value child else []
  termination_by doc.size - id

end Document

end TopicLint
