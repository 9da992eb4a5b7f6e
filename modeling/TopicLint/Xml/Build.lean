import TopicLint.Document.Forest
import TopicLint.Xml.Reference

/-! From the pieces of a document to its tree. A builder keeps the elements that are started and
not ended; it resolves names in the namespaces that are in scope, and puts the content of entities
where they are referred to. -/

namespace TopicLint.Xml

/-- The namespaces in scope by prefix, the nearest declaration first. The default namespace has no
prefix. -/
abbrev Scope := List (Option String × String)

def reservedSpace : String := "http://www.w3.org/2000/xmlns/"

/-- An element that is started and not ended. -/
structure Frame where
  written : Written
  tag : Tag
  scope : Scope
  /-- The items inside so far, the last one first. -/
  items : Forest

structure Builder where
  /-- The elements around the current place, the innermost first. -/
  frames : List Frame
  /-- The items outside every element, the last one first. -/
  top : Forest
  /-- How many references have been followed inside the current entity. -/
  count : Nat

namespace Builder

def empty : Builder := ⟨[], .nil, 0⟩

def scope (builder : Builder) : Scope := (builder.frames.head?.map (·.scope)).getD []

def add (builder : Builder) (item : Forest → Forest) : Builder :=
  match builder.frames with
  | [] => { builder with top := item builder.top }
  | frame :: outer => { builder with frames := { frame with items := item frame.items } :: outer }

/-- Adds text that is held backwards, unless there is none. -/
def addText (builder : Builder) (text : List Char) : Builder :=
  if text.isEmpty then builder else builder.add (.text (String.ofList text.reverse))

/-- Ends the innermost element, which has to have the name of the end tag. -/
def finish (builder : Builder) (name : Written) : Option Builder :=
  match builder.frames with
  | [] => none
  | frame :: outer =>
      if frame.written = name then
        some ({ builder with frames := outer }.add
          (.element frame.tag (frame.items.reverseOnto .nil)))
      else none

end Builder

/-- The namespace that an attribute declares, with its prefix. The prefix `xml` has one namespace,
which no other prefix may have, and its declaration adds nothing. -/
def declaration? (name : Written) (value : String) : Option (Option (Option String × String)) :=
  if name.lead = "xmlns" then
    if value = reservedSpace then none
    else if name.base = "xml" then if value = Name.xmlSpace then some none else none
    else if value = Name.xmlSpace then none
    else some (some (some name.base, value))
  else if value = Name.xmlSpace || value = reservedSpace then none
  else some (some (none, value))

def declares (name : Written) : Bool := name.lead == "xmlns" || name.base == "xmlns"

/-- Adds the declarations among attributes to a scope. No prefix may be declared twice. -/
def ownScope (attributes : List (Written × String)) : Option Scope :=
  attributes.foldlM (fun scope (name, value) =>
    if declares name then do
      match ← declaration? name value with
      | none => return scope
      | some (space, uri) =>
          if space.isSome && (scope.lookup space).isSome then none else return scope ++ [(space, uri)]
    else return scope) []

def elementName (scope : Scope) (name : Written) : Option Name :=
  if name.lead = "xmlns" then none
  else if name.lead.isEmpty then some ⟨scope.lookup none, name.base⟩
  else (scope.lookup (some name.lead)).map fun uri => ⟨some uri, name.base⟩

/-- The name of an attribute in a scope. Without a prefix it is in no namespace. -/
def attributeName (scope : Scope) (name : Written) : Option Name :=
  if name.lead = "xml" then some ⟨some Name.xmlSpace, name.base⟩
  else if name.lead.isEmpty then some ⟨none, name.base⟩
  else (scope.lookup (some name.lead)).map fun uri => ⟨some uri, name.base⟩

/-- The attributes of an element in a scope, of which no two may have the same name. -/
def resolveAttributes (scope : Scope) (attributes : List (Written × String)) :
    Option (List (Name × String)) := do
  let named ← (attributes.filter fun (name, _) => ! declares name).mapM fun (name, value) =>
    (attributeName scope name).map fun resolved => (resolved, value)
  if (named.map (·.1)).Nodup then return named else none

/-- The values of attributes, each with the references in it resolved. -/
def attributeValues (entities : List Entity) (depth : Nat) (inside : Bool) (count : Nat) :
    List RawAttribute → Option (List (Written × String) × Nat)
  | [] => some ([], count)
  | next :: rest => do
      let (value, count) ← attributeValue entities depth inside count next.value
      let (others, count) ← attributeValues entities depth inside count rest
      return ((next.name, String.ofList value) :: others, count)

section Filling

variable (entities : List Entity) (depth : Nat) (inside : Bool)
  (expand : Source → Builder → Option Builder)

/-- Adds the text of chunks to text that is held backwards, and the content of entities. Outside
entities a character given by number is kept, and so is the written one behind it. -/
def fillText : List Char → Bool → List Chunk → Builder → Option Builder
  | text, _, [], builder => some (builder.addText text)
  | text, keep, .plain c :: rest, builder =>
      fillText (if keep then c :: text else pushText c rest.isEmpty text) false rest builder
  | text, keep, .char c :: rest, builder =>
      if inside then fillText (pushText c rest.isEmpty text) keep rest builder
      else fillText (c :: text) true rest builder
  | text, _, .entity name :: rest, builder => do
      let builder := builder.addText text
      let entity ← entities.find? (·.name == name)
      let count ← countReference inside builder.count
      let filled ← expand entity.text { builder with count }
      fillText [] false rest (if inside then filled else { filled with count := 0 })

def fillPiece (builder : Builder) : Piece → Option Builder
  | .note => some (builder.add .note)
  | .literal raw => some (builder.add (.text (literalText raw)))
  | .text raw => do fillText entities inside expand [] false (← Chunk.ofRaw raw) builder
  | .finish name => builder.finish name
  | .start name raw line column closed => do
      let (attributes, count) ← attributeValues entities depth inside builder.count raw
      let scope := (← ownScope attributes) ++ builder.scope
      let tag : Tag :=
        { name := ← elementName scope name
          attributes := ← resolveAttributes scope attributes
          line := line
          column := column }
      let builder := { builder with count }
      if closed then return builder.add (.element tag .nil)
      else return { builder with frames := ⟨name, tag, scope, .nil⟩ :: builder.frames }

end Filling

/-- Whether no end tag comes before the first start tag. -/
def startsInside (pieces : List Piece) : Bool :=
  match pieces.find? fun | .start .. | .finish _ => true | _ => false with
  | some (.finish _) => false
  | _ => true

/-- Adds pieces of content, in which entities may be nested to the given depth. The content of an
entity may not start with the end of an element outside it. -/
def fill (entities : List Entity) : Nat → Bool → List Piece → Builder → Option Builder
  | depth, inside, pieces, builder =>
      pieces.foldlM (fillPiece entities depth inside fun source builder =>
        match depth with
        | 0 => none
        | deeper + 1 => do
            let (content, _) ← Scan.pieces 0 source
            if startsInside content then fill entities deeper true content builder else none)
        builder

/-- The first element at the top of a forest, as a tree. -/
def firstTree : Forest → Option Tree
  | .nil => none
  | .text _ rest => firstTree rest
  | .note rest => firstTree rest
  | .element tag inner _ => some ⟨tag, inner⟩

def entityDepth : Nat := 10

/-- The root element as it is written: its start tag, and its content if it has any. -/
def rootPieces : Scan (List Piece) := do
  let item ← Scan.startTag
  match item with
  | .start _ _ _ _ false => return item :: (← Scan.pieces 0)
  | _ => return [item]

/-- The entities and the pieces of a document. Nothing but notes may stand around the root. -/
def documentPieces : Scan (List Entity × List Piece) := do
  if ← Scan.ahead "\uFEFF" then Scan.skip 1
  Scan.declaration
  Scan.notes
  let entities ← Scan.documentType
  Scan.spaces
  let pieces ← rootPieces
  Scan.notes
  if ← Scan.atEnd then return (entities, pieces) else Scan.refuse

/-- The tree of a document, unless it is not well-formed. -/
def parse (text : String) : Option Tree := do
  let ((entities, pieces), _) ← documentPieces (Source.ofString text)
  let builder ← fill entities entityDepth false pieces .empty
  if builder.frames.isEmpty then firstTree (builder.top.reverseOnto .nil) else none

end TopicLint.Xml
