import TopicLint.Proofs.Document.Axes

/-! Queries that look before they leap. Here every element is looked up by a number that has to be
that of an element, siblings are cut only at a place that they have, and a walk down or up must go on
down or up; what does not is a fault. On a sound document no query meets a fault from a node inside
it, and each finds what the query without the checks finds. -/

namespace TopicLint

/-- What a look-up can fail at. -/
inductive Checked.Fault where
  /-- No element has the number. -/
  | missing (id : Nat)
  /-- A list is cut behind its end. -/
  | cut (bound : Nat)
  /-- A walk that has to go on in one direction does not. -/
  | turned (id : Nat)
  /-- A predicate is asked about a node that is not inside the document. -/
  | stranger (node : Node)
  deriving DecidableEq, Repr

/-- A node that is nothing, or an element of a document at a place below the number of its elements. -/
def Node.Inside (doc : Document) : Node → Prop
  | nothing => True
  | found id place => id < doc.size ∧ place < doc.size

instance (doc : Document) (node : Node) : Decidable (node.Inside doc) :=
  match node with
  | .nothing => inferInstanceAs (Decidable True)
  | .found id place => inferInstanceAs (Decidable (id < doc.size ∧ place < doc.size))

namespace Checked

variable (doc : Document)

def element (id : Nat) : Except Fault Element :=
  match doc.element? id with
  | some element => return element
  | none => throw (.missing id)

def siblings (id : Nat) : Except Fault (List Nat) :=
  match doc.parent? id with
  | some parent => return (← element doc parent).children
  | none => return [0]

/-- Two parts of a list: up to a place, and behind another one. -/
def split (ids : List Nat) (upTo behind : Nat) : Except Fault (List Nat × List Nat) :=
  if ids.length < upTo then throw (.cut upTo)
  else if ids.length < behind then throw (.cut behind)
  else return (ids.take upTo, ids.drop behind)

/-- The siblings before an element, and those behind it. -/
def splitSiblings (id : Nat) : Except Fault (List Nat × List Nat) := do
  let index := (← element doc id).index
  split (← siblings doc id) index (index + 1)

def ancestors (id : Nat) : Except Fault (List Nat) :=
  match doc.parent? id with
  | some parent =>
      if parent < id then return parent :: (← ancestors parent) else throw (.turned parent)
  | none => return []
  termination_by id

def walk (id : Nat) : Axis → Except Fault (List Nat)
  | .child => return (← element doc id).children
  | .parent => return (doc.parent? id).toList
  | .ancestorOrSelf => return id :: (← ancestors doc id)
  | .ancestor => ancestors doc id
  | .descendantOrSelf => return List.range' id ((← element doc id).stop - id)
  | .descendant => return List.range' (id + 1) ((← element doc id).stop - (id + 1))
  | .precedingSibling => return (← splitSiblings doc id).1.reverse
  | .followingSibling => return (← splitSiblings doc id).2
  | .previousSibling => return (← splitSiblings doc id).1.getLast?.toList
  | .nextSibling => return (← splitSiblings doc id).2.head?.toList
  | .itself => return [id]

/-- All text inside an element. The elements inside it are looked up one by one. -/
def elementValue (id : Nat) : Except Fault (List Char) := do
  (← element doc id).content.foldlM (fun text piece =>
    match piece with
    | .text run => return text ++ run.toList
    | .element child => do
        if id < child ∧ child < doc.size then return text ++ (← elementValue child)
        else throw (.turned child)) []
  termination_by doc.size - id

/-- Something that an element says of itself, or what takes its place for nothing. -/
def field {α : Type} (missing : α) (read : Element → α) : Node → Except Fault α
  | .nothing => return missing
  | .found id _ => return read (← element doc id)

def name : Node → Except Fault String := field doc "" (·.name)

def attr (name : String) : Node → Except Fault String :=
  field doc "" fun element => (element.attributes.lookup (Name.expand name)).getD ""

def text : Node → Except Fault String :=
  field doc "" fun element => String.join <| element.content.map fun
    | .text run => run
    | .element _ => ""

def documentIndex : Node → Except Fault Int := field doc (-1) fun element => element.index

def line : Node → Except Fault Nat := field doc 0 (·.line)

def column : Node → Except Fault Nat := field doc 0 (·.column)

def value : Node → Except Fault String
  | .nothing => return ""
  | .found id _ => return String.ofList (← elementValue doc id)

/-- The filter that lets every name pass does without the element. -/
def matchesName (filter : String) : Node → Except Fault Bool
  | .nothing => return false
  | .found id _ => do
      if filter == anyName then return true
      else return (← element doc id).tag == Name.expand filter

def firstMatch (filter : String) (ask : Node → Except Fault Bool) : Nat → List Nat → Except Fault Node
  | _, [] => return .nothing
  | place, id :: rest => do
      if ← matchesName doc filter (.found id place) then
        if ← ask (.found id place) then return .found id place
        else firstMatch filter ask (place + 1) rest
      else firstMatch filter ask place rest

def alongWhere (axis : Axis) (filter : String) (ask : Node → Except Fault Bool) :
    Node → Except Fault Node
  | .nothing => return .nothing
  | .found id place => do
      if axis = .itself then
        if ← matchesName doc filter (.found id place) then
          if ← ask (.found id place) then return .found id place else return .nothing
        else return .nothing
      else firstMatch doc filter ask 0 (← walk doc id axis)

def hasStyle (spec : String) (node : Node) : Except Fault Bool := do
  let parts := Text.split (· = '.') spec
  let tag := parts.headD ""
  let shown ← name doc node
  let style ← attr doc "class" node
  return node.exists? && (tag.isEmpty || tag == shown) && parts.getD 1 "" == style

def languageAt (node : Node) : Except Fault String := do
  let carrier ← alongWhere doc .ancestorOrSelf anyName
    (fun around => return ! (← attr doc "xml:lang" around).isEmpty) node
  if carrier.exists? then attr doc "xml:lang" carrier else return doc.defaultLanguage

def hasLanguage (tag : String) (node : Node) : Except Fault Bool :=
  return node.exists? && Text.startsWith (Text.lowercase (← languageAt doc node)) (Text.lowercase tag)

def ownConditions (node : Node) : Except Fault (List String) :=
  return Text.split (fun c => c = ',' || c = ';' || Text.isBlank c)
    (← attr doc "MadCap:conditions" node)

def hasCondition (name : String) (node : Node) : Except Fault Bool :=
  return (← alongWhere doc .ancestorOrSelf anyName
    (fun around => return (← ownConditions doc around).contains name) node).exists?

def isSnippet (source : String) (node : Node) : Except Fault Bool :=
  Node.snippetNames.anyM fun name =>
    return (← alongWhere doc .itself name
      (fun here => return (← attr doc "src" here) == source) node).exists?

end Checked

/-- What makes every look-up in a document succeed: the numbers that elements list and that walks lead
through are those of elements, and they go in the direction of the walk. -/
structure Document.Sound (doc : Document) : Prop where
  size_pos : 0 < doc.size
  child_lt : ∀ id element child, doc.element? id = some element →
    .element child ∈ element.content → id < child ∧ child < doc.size
  parent_lt : ∀ id parent, doc.parent? id = some parent → parent < id
  index_lt : ∀ id element, doc.element? id = some element → element.index < (doc.siblings id).length
  walk_lt : ∀ id axis other, id < doc.size → other ∈ doc.walk id axis → other < doc.size
  length_walk_le : ∀ id axis, id < doc.size → (doc.walk id axis).length ≤ doc.size

namespace Checked

variable {doc : Document} {id place : Nat} {node : Node}

theorem exists_lookup (small : id < doc.size) :
    ∃ found, doc.element? id = some found ∧ element doc id = .ok found := by
  obtain ⟨found, there⟩ := Document.exists_element small
  refine ⟨found, there, ?_⟩
  rw [element, there]
  rfl

section Fields

theorem field_eq {α : Type} (inside : node.Inside doc) (missing : α) (read : Element → α) :
    field doc missing read node = .ok (((node.element? doc).map read).getD missing) := by
  cases node with
  | nothing => rfl
  | found id place =>
    obtain ⟨found, there, looked⟩ := exists_lookup inside.1
    rw [field, looked, Node.element?, there]
    rfl

theorem name_eq (inside : node.Inside doc) : name doc node = .ok (node.name doc) :=
  field_eq inside _ _

theorem attr_eq (inside : node.Inside doc) (name : String) :
    attr doc name node = .ok (node.attr doc name) := by
  rw [attr, field_eq inside, Node.attr]
  cases node.element? doc with
  | none => rfl
  | some element => rfl

theorem text_eq (inside : node.Inside doc) : text doc node = .ok (node.text doc) := by
  rw [text, field_eq inside, Node.text]
  cases node.element? doc with
  | none => rfl
  | some element => rfl

theorem documentIndex_eq (inside : node.Inside doc) :
    documentIndex doc node = .ok (node.documentIndex doc) := field_eq inside _ _

theorem line_eq (inside : node.Inside doc) : line doc node = .ok (node.line doc) :=
  field_eq inside _ _

theorem column_eq (inside : node.Inside doc) : column doc node = .ok (node.column doc) :=
  field_eq inside _ _

theorem matchesName_eq (inside : node.Inside doc) (filter : String) :
    matchesName doc filter node = .ok (node.matchesName doc filter) := by
  cases node with
  | nothing => rfl
  | found id place =>
    obtain ⟨found, there, looked⟩ := exists_lookup inside.1
    rw [matchesName, looked, Node.matchesName, Node.element?, there]
    cases filter == anyName with
    | true => rfl
    | false => rfl

end Fields

section Walks

variable (sound : doc.Sound)

theorem foldlM_flatMap {α : Type} {extend : List Char → α → Except Fault (List Char)}
    {piece : α → List Char} {pieces : List α}
    (extends_by : ∀ a ∈ pieces, ∀ text, extend text a = .ok (text ++ piece a)) (text : List Char) :
    pieces.foldlM extend text = .ok (text ++ pieces.flatMap piece) := by
  induction pieces generalizing text with
  | nil => simp [pure, Except.pure]
  | cons a rest ih =>
    rw [List.foldlM_cons, extends_by a List.mem_cons_self]
    have behind := ih (fun b member => extends_by b (List.mem_cons_of_mem a member)) (text ++ piece a)
    rw [List.flatMap_cons, ← List.append_assoc]
    exact behind

include sound in
theorem elementValue_eq (small : id < doc.size) :
    elementValue doc id = .ok (doc.value id) := by
  -- The induction is on how many elements there are from this one on: those inside it have fewer.
  generalize left : doc.size - id = depth
  induction depth using Nat.strongRecOn generalizing id with
  | ind depth ih =>
    obtain ⟨found, there, looked⟩ := exists_lookup small
    rw [elementValue, looked, Document.value, there]
    refine foldlM_flatMap (fun piece member text => ?_) []
    cases piece with
    | text run => rfl
    | element child =>
      have deeper := sound.child_lt id found child there member
      dsimp only
      rw [if_pos deeper, if_pos deeper, ih (doc.size - child) (by omega) deeper.2 rfl]
      rfl

include sound in
theorem value_eq (inside : node.Inside doc) : value doc node = .ok (node.value doc) := by
  cases node with
  | nothing => rfl
  | found id place =>
    rw [value, elementValue_eq sound inside.1]
    rfl

include sound in
theorem siblings_eq (small : id < doc.size) : siblings doc id = .ok (doc.siblings id) := by
  rw [siblings, Document.siblings]
  cases up : doc.parent? id with
  | none => rfl
  | some parent =>
    have less := sound.parent_lt id parent up
    obtain ⟨found, there, looked⟩ := exists_lookup (Nat.lt_trans less small)
    dsimp only
    rw [looked, Document.children_eq doc there]
    rfl

include sound in
theorem splitSiblings_eq (small : id < doc.size) : splitSiblings doc id =
    .ok ((doc.siblings id).take (Document.walk.index doc id),
      (doc.siblings id).drop (Document.walk.index doc id + 1)) := by
  obtain ⟨found, there, looked⟩ := exists_lookup small
  have bound := sound.index_lt id found there
  rw [splitSiblings, looked, siblings_eq sound small, Document.index_eq there]
  change split (doc.siblings id) found.index (found.index + 1) = _
  rw [split, if_neg (by omega), if_neg (by omega)]
  rfl

include sound in
theorem ancestors_eq (id : Nat) : ancestors doc id = .ok (doc.ancestors id) := by
  induction id using Nat.strongRecOn with
  | ind id ih =>
    rw [ancestors, Document.ancestors]
    cases up : doc.parent? id with
    | none => rfl
    | some parent =>
      have less := sound.parent_lt id parent up
      dsimp only
      rw [if_pos less, if_pos less, ih parent less]
      rfl

include sound in
theorem walk_eq (small : id < doc.size) (axis : Axis) : walk doc id axis = .ok (doc.walk id axis) := by
  obtain ⟨found, there, looked⟩ := exists_lookup small
  have stop_eq := Document.stop_eq there
  cases axis with
  | child => rw [walk, looked, Document.walk, Document.children_eq doc there]; rfl
  | parent => rfl
  | ancestorOrSelf => rw [walk, ancestors_eq sound]; rfl
  | ancestor => rw [walk, ancestors_eq sound]; rfl
  | descendantOrSelf => rw [walk, looked, Document.walk, stop_eq]; rfl
  | descendant => rw [walk, looked, Document.walk, stop_eq]; rfl
  | precedingSibling => rw [walk, splitSiblings_eq sound small]; rfl
  | followingSibling => rw [walk, splitSiblings_eq sound small]; rfl
  | previousSibling => rw [walk, splitSiblings_eq sound small]; rfl
  | nextSibling => rw [walk, splitSiblings_eq sound small]; rfl
  | itself => rfl

end Walks

section Searches

variable {filter : String} {accept : Node → Bool} {ask : Node → Except Fault Bool} {ids : List Nat}

/-- A search along numbers of elements asks its predicate about nodes inside the document only: the
place of each is smaller than the number of candidates. -/
theorem firstMatch_eq (agree : ∀ other, other.Inside doc → ask other = .ok (accept other))
    (small : ∀ id ∈ ids, id < doc.size) (bound : place + ids.length ≤ doc.size) :
    firstMatch doc filter ask place ids = .ok (Node.firstMatch doc filter accept place ids) := by
  induction ids generalizing place with
  | nil => rfl
  | cons id rest ih =>
    rw [List.length_cons] at bound
    have inside : (Node.found id place).Inside doc := ⟨small id List.mem_cons_self, by omega⟩
    have later : ∀ other ∈ rest, other < doc.size :=
      fun other member => small other (List.mem_cons_of_mem id member)
    have next := ih later (show place + 1 + rest.length ≤ doc.size by omega)
    have same := ih later (show place + rest.length ≤ doc.size by omega)
    rw [firstMatch, Node.firstMatch, matchesName_eq inside, agree _ inside]
    cases (Node.found id place).matchesName doc filter with
    | false => exact same
    | true =>
      cases accept (.found id place) with
      | true => rfl
      | false => exact next

theorem inside_firstMatch (small : ∀ id ∈ ids, id < doc.size) (bound : place + ids.length ≤ doc.size) :
    (Node.firstMatch doc filter accept place ids).Inside doc := by
  induction ids generalizing place with
  | nil => exact trivial
  | cons id rest ih =>
    rw [List.length_cons] at bound
    have later : ∀ other ∈ rest, other < doc.size :=
      fun other member => small other (List.mem_cons_of_mem id member)
    unfold Node.firstMatch
    split
    · split
      · exact ⟨small id List.mem_cons_self, by omega⟩
      · exact ih later (by omega)
    · exact ih later (by omega)

variable (sound : doc.Sound)

include sound in
/-- A step along an axis meets no fault from a node inside the document, if its predicate meets none
there. -/
theorem alongWhere_eq (agree : ∀ other, other.Inside doc → ask other = .ok (accept other))
    (inside : node.Inside doc) (axis : Axis) :
    alongWhere doc axis filter ask node = .ok (node.alongWhere doc axis filter accept) := by
  cases node with
  | nothing => rfl
  | found id place =>
    rw [alongWhere, Node.alongWhere]
    by_cases stays : axis = .itself
    · rw [if_pos stays, if_pos stays, matchesName_eq inside, agree _ inside]
      cases (Node.found id place).matchesName doc filter with
      | false => rfl
      | true => cases accept (.found id place) <;> rfl
    · rw [if_neg stays, if_neg stays, walk_eq sound inside.1]
      apply firstMatch_eq agree (fun other => sound.walk_lt id axis other inside.1)
      rw [Nat.zero_add]
      exact sound.length_walk_le id axis inside.1

include sound in
/-- A step along an axis stays inside the document. -/
theorem inside_alongWhere (inside : node.Inside doc) (axis : Axis) (filter : String)
    (accept : Node → Bool) : (node.alongWhere doc axis filter accept).Inside doc := by
  cases node with
  | nothing => exact trivial
  | found id place =>
    rw [Node.alongWhere]
    by_cases stays : axis = .itself
    · rw [if_pos stays]
      split
      · exact inside
      · exact trivial
    · rw [if_neg stays]
      apply inside_firstMatch (fun other => sound.walk_lt id axis other inside.1)
      rw [Nat.zero_add]
      exact sound.length_walk_le id axis inside.1

end Searches

section Attributes

variable (sound : doc.Sound)

theorem hasStyle_eq (inside : node.Inside doc) (spec : String) :
    hasStyle doc spec node = .ok (node.hasStyle doc spec) := by
  rw [hasStyle, name_eq inside, attr_eq inside]
  rfl

include sound in
theorem languageAt_eq (inside : node.Inside doc) :
    languageAt doc node = .ok (node.languageAt doc) := by
  have declares (other : Node) (within : other.Inside doc) :
      (return ! (← attr doc "xml:lang" other).isEmpty : Except Fault Bool) =
        .ok (! (other.attr doc "xml:lang").isEmpty) := by
    rw [attr_eq within]
    rfl
  rw [languageAt, alongWhere_eq sound declares inside, Node.languageAt]
  generalize carried : node.alongWhere doc .ancestorOrSelf anyName _ = carrier
  have within : carrier.Inside doc := carried ▸ inside_alongWhere sound inside _ _ _
  change (if carrier.exists? then attr doc "xml:lang" carrier else return doc.defaultLanguage) = _
  rw [attr_eq within, apply_ite Except.ok]
  rfl

include sound in
theorem hasLanguage_eq (inside : node.Inside doc) (tag : String) :
    hasLanguage doc tag node = .ok (node.hasLanguage doc tag) := by
  rw [hasLanguage, languageAt_eq sound inside]
  rfl

theorem ownConditions_eq (inside : node.Inside doc) :
    ownConditions doc node = .ok (node.ownConditions doc) := by
  rw [ownConditions, attr_eq inside]
  rfl

include sound in
theorem hasCondition_eq (inside : node.Inside doc) (name : String) :
    hasCondition doc name node = .ok (node.hasCondition doc name) := by
  have carries (other : Node) (within : other.Inside doc) :
      (return (← ownConditions doc other).contains name : Except Fault Bool) =
        .ok ((other.ownConditions doc).contains name) := by
    rw [ownConditions_eq within]
    rfl
  rw [hasCondition, alongWhere_eq sound carries inside]
  rfl

include sound in
theorem isSnippet_eq (inside : node.Inside doc) (source : String) :
    isSnippet doc source node = .ok (node.isSnippet doc source) := by
  have inserts (other : Node) (within : other.Inside doc) :
      (return (← attr doc "src" other) == source : Except Fault Bool) =
        .ok (other.attr doc "src" == source) := by
    rw [attr_eq within]
    rfl
  have named (name : String) : (return (← alongWhere doc .itself name
      (fun here => return (← attr doc "src" here) == source) node).exists? : Except Fault Bool) =
        .ok (node.alongWhere doc .itself name fun here => here.attr doc "src" == source).exists? := by
    rw [alongWhere_eq sound inserts inside]
    rfl
  simp only [isSnippet, Node.isSnippet, named]
  exact List.anyM_pure

end Attributes

end Checked

end TopicLint
