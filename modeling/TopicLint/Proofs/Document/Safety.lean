import Mathlib.Data.List.Perm.Subperm
import TopicLint.Proofs.Document.Checked
import TopicLint.Proofs.Document.Selection

/-! Walks through a document are safe. However many steps a query takes, along whatever axes and with
whatever predicates, it meets only elements of the document and then perhaps nothing; each look-up on
the way succeeds, and from nothing on nothing is found. -/

namespace TopicLint

namespace Document

/-- A step of a query: an axis, a name, and a predicate. -/
structure Step where
  axis : Axis
  filter : String
  accept : Node → Bool

/-- The nodes that a query meets: the one it starts from, and the one after each step. -/
def trail (doc : Document) (node : Node) : List Step → List Node
  | [] => [node]
  | step :: more =>
      node :: doc.trail (node.alongWhere doc step.axis step.filter step.accept) more

end Document

namespace Checked

/-- A predicate that refuses to be asked about a node that is not inside the document. -/
def strict (doc : Document) (accept : Node → Bool) (node : Node) : Except Fault Bool :=
  if node.Inside doc then return accept node else throw (.stranger node)

/-- The nodes that a query meets, with all look-ups checked and each predicate a strict one. -/
def trail (doc : Document) (node : Node) : List Document.Step → Except Fault (List Node)
  | [] => return [node]
  | step :: more =>
      return node :: (← trail doc
        (← alongWhere doc step.axis step.filter (strict doc step.accept) node) more)

/-- Whatever is asked of a node, all look-ups that the answer takes succeed. -/
structure Answers (doc : Document) (node : Node) : Prop where
  name_eq : name doc node = .ok (node.name doc)
  matchesName_eq : ∀ filter, matchesName doc filter node = .ok (node.matchesName doc filter)
  attr_eq : ∀ key, attr doc key node = .ok (node.attr doc key)
  text_eq : text doc node = .ok (node.text doc)
  value_eq : value doc node = .ok (node.value doc)
  documentIndex_eq : documentIndex doc node = .ok (node.documentIndex doc)
  line_eq : line doc node = .ok (node.line doc)
  column_eq : column doc node = .ok (node.column doc)
  hasStyle_eq : ∀ spec, hasStyle doc spec node = .ok (node.hasStyle doc spec)
  hasLanguage_eq : ∀ tag, hasLanguage doc tag node = .ok (node.hasLanguage doc tag)
  hasCondition_eq : ∀ key, hasCondition doc key node = .ok (node.hasCondition doc key)
  isSnippet_eq : ∀ source, isSnippet doc source node = .ok (node.isSnippet doc source)
  /-- A predicate may look up what it likes, and walk on from the node that it is asked about, as long
  as it meets no fault inside the document. -/
  alongWhere_eq : ∀ axis filter accept ask,
    (∀ other, other.Inside doc → ask other = .ok (accept other)) →
      alongWhere doc axis filter ask node = .ok (node.alongWhere doc axis filter accept)

end Checked

/-- A node that answers nothing to every question. -/
structure Node.Vacant (doc : Document) (node : Node) : Prop where
  name_eq : node.name doc = ""
  text_eq : node.text doc = ""
  value_eq : node.value doc = ""
  attr_eq : ∀ key, node.attr doc key = ""
  position_eq : node.position = -1
  documentIndex_eq : node.documentIndex doc = -1
  line_eq : node.line doc = 0
  column_eq : node.column doc = 0
  matchesName_eq : ∀ filter, node.matchesName doc filter = false
  hasStyle_eq : ∀ spec, node.hasStyle doc spec = false
  hasLanguage_eq : ∀ tag, node.hasLanguage doc tag = false
  hasCondition_eq : ∀ key, node.hasCondition doc key = false
  isSnippet_eq : ∀ source, node.isSnippet doc source = false

namespace Document

section Bounds

variable {tree : Tree} {language : String} {id other : Nat}

theorem lt_size_of_mem_children (member : other ∈ (ofTree tree language).children id) :
    other < (ofTree tree language).size :=
  lt_size_of_parent? (parent?_eq_some_iff.2 member)

theorem lt_size_of_mem_siblings (small : id < (ofTree tree language).size)
    (member : other ∈ (ofTree tree language).siblings id) : other < (ofTree tree language).size := by
  cases up : (ofTree tree language).parent? id with
  | none =>
    rw [siblings_of_root up, List.mem_singleton] at member
    omega
  | some parent =>
    rw [siblings_of_parent up] at member
    exact lt_size_of_mem_children member

theorem lt_size_of_mem_ancestors (small : id < (ofTree tree language).size)
    (member : other ∈ (ofTree tree language).ancestors id) : other < (ofTree tree language).size :=
  Nat.lt_trans (mem_ancestors_iff.1 member).1 small

theorem stop_le (small : id < (ofTree tree language).size) :
    walk.stop (ofTree tree language) id ≤ (ofTree tree language).size := by
  obtain ⟨element, found⟩ := exists_element small
  rw [stop_eq found]
  exact stop_le_size found

/-- Every axis leads to elements of the document. -/
theorem lt_size_of_mem_walk (axis : Axis) (small : id < (ofTree tree language).size)
    (member : other ∈ (ofTree tree language).walk id axis) : other < (ofTree tree language).size := by
  have stop := stop_le small
  cases axis with
  | child => exact lt_size_of_mem_children member
  | parent =>
    have less := parent?_lt (Option.mem_toList.1 member)
    omega
  | ancestorOrSelf =>
    rcases List.mem_cons.1 member with same | above
    · exact same ▸ small
    · exact lt_size_of_mem_ancestors small above
  | ancestor => exact lt_size_of_mem_ancestors small member
  | descendantOrSelf =>
    have within := List.mem_range'_1.1 member
    omega
  | descendant =>
    have within := mem_descendant_iff.1 member
    omega
  | precedingSibling =>
    exact lt_size_of_mem_siblings small (List.mem_of_mem_take (List.mem_reverse.1 member))
  | followingSibling => exact lt_size_of_mem_siblings small (List.mem_of_mem_drop member)
  | previousSibling =>
    have last := List.mem_of_getLast? (Option.mem_toList.1 member)
    exact lt_size_of_mem_siblings small (List.mem_of_mem_take last)
  | nextSibling =>
    have first := List.mem_of_mem_head? (Option.mem_toList.1 member)
    exact lt_size_of_mem_siblings small (List.mem_of_mem_drop first)
  | itself => exact List.mem_singleton.1 member ▸ small

/-- No axis leads to an element twice, so that it leads to no more elements than there are. -/
theorem length_walk_le (axis : Axis) (small : id < (ofTree tree language).size) :
    ((ofTree tree language).walk id axis).length ≤ (ofTree tree language).size := by
  have inside : (ofTree tree language).walk id axis ⊆ List.range (ofTree tree language).size :=
    fun other member => List.mem_range.2 (lt_size_of_mem_walk axis small member)
  simpa using ((nodup_walk id axis).subperm inside).length_le

theorem lt_of_mem_content {element : Element} (found : (ofTree tree language).element? id = some element)
    (member : .element other ∈ element.content) : id < other ∧ other < (ofTree tree language).size := by
  obtain ⟨subtree, up, place, rfl, -⟩ := holds_of_element? found
  have listed := (Forest.tidy_inside subtree.inner (id + 1) Inside.tidy_empty).listed
  have child : other ∈ (subtree.element id place).children := by
    change other ∈ (subtree.inner.inside (id + 1) .empty).children.toList
    rw [← listed]
    exact List.mem_filterMap.2 ⟨_, member, rfl⟩
  rw [← children_eq _ found] at child
  exact ⟨parent?_lt (parent?_eq_some_iff.2 child), lt_size_of_mem_children child⟩

theorem sound_ofTree (tree : Tree) (language : String) : (ofTree tree language).Sound where
  size_pos := by
    rw [size_ofTree]
    exact Nat.succ_pos _
  child_lt _ _ _ found member := lt_of_mem_content found member
  parent_lt _ _ := parent?_lt
  index_lt _ _ found := (List.getElem?_eq_some_iff.1 (getElem?_siblings found)).1
  walk_lt _ axis _ small := lt_size_of_mem_walk axis small
  length_walk_le _ axis := length_walk_le axis

end Bounds

section Trails

variable {doc : Document} {node : Node} {steps : List Step}

theorem inside_start (sound : doc.Sound) (start : node ∈ doc.root :: doc.nodes) : node.Inside doc := by
  rcases List.mem_cons.1 start with rfl | listed
  · exact ⟨sound.size_pos, sound.size_pos⟩
  · obtain ⟨id, small, rfl⟩ := List.mem_map.1 listed
    exact ⟨List.mem_range.1 small, sound.size_pos⟩

theorem inside_trail (sound : doc.Sound) (inside : node.Inside doc) :
    ∀ met ∈ doc.trail node steps, met.Inside doc := by
  induction steps generalizing node with
  | nil =>
    intro met member
    exact List.mem_singleton.1 member ▸ inside
  | cons step more ih =>
    intro met member
    rcases List.mem_cons.1 member with rfl | later
    · exact inside
    · exact ih (Checked.inside_alongWhere sound inside _ _ _) met later

theorem strict_eq {accept : Node → Bool} (inside : node.Inside doc) :
    Checked.strict doc accept node = .ok (accept node) := if_pos inside

theorem trail_eq (sound : doc.Sound) (inside : node.Inside doc) :
    Checked.trail doc node steps = .ok (doc.trail node steps) := by
  induction steps generalizing node with
  | nil => rfl
  | cons step more ih =>
    have within := Checked.inside_alongWhere sound inside step.axis step.filter step.accept
    rw [Checked.trail, Checked.alongWhere_eq sound (fun _ => strict_eq) inside]
    change (return node :: (← Checked.trail doc
      (node.alongWhere doc step.axis step.filter step.accept) more)) = _
    rw [ih within]
    rfl

/-- From nothing a query meets nothing. -/
theorem trail_nothing : doc.trail .nothing steps = List.replicate (steps.length + 1) .nothing := by
  induction steps with
  | nil => rfl
  | cons step more ih =>
    rw [trail, List.length_cons, List.replicate_succ]
    exact congrArg (Node.nothing :: ·) ih

theorem trail_absorbs {k later : Nat} (lost : (doc.trail node steps)[k]? = some .nothing)
    (behind : k ≤ later) (bound : later ≤ steps.length) :
    (doc.trail node steps)[later]? = some .nothing := by
  induction steps generalizing node k later with
  | nil =>
    obtain rfl : later = k := by simp at bound; omega
    exact lost
  | cons step more ih =>
    cases k with
    | zero =>
      obtain rfl : node = .nothing := by simpa [trail] using lost
      rw [trail_nothing, List.getElem?_replicate, if_pos (by omega)]
    | succ k =>
      obtain ⟨later, rfl⟩ : ∃ earlier, later = earlier + 1 := ⟨later - 1, by omega⟩
      rw [trail, List.getElem?_cons_succ] at lost ⊢
      exact ih lost (by omega) (by simpa using bound)

end Trails

/-- Walks through a document are safe. -/
structure SafeToWalk (doc : Document) : Prop where
  /-- Every node that a query meets is nothing, or an element at a place below their number. -/
  inside : ∀ start ∈ doc.root :: doc.nodes, ∀ steps, ∀ node ∈ doc.trail start steps, node.Inside doc
  /-- The look-ups of all steps succeed, and each predicate is asked about nodes inside only. -/
  checked : ∀ start ∈ doc.root :: doc.nodes, ∀ steps,
    Checked.trail doc start steps = .ok (doc.trail start steps)
  /-- Whatever is asked of a node inside the document, all look-ups succeed. -/
  answers : ∀ node, node.Inside doc → Checked.Answers doc node
  absorbs : ∀ start steps k later, (doc.trail start steps)[k]? = some .nothing → k ≤ later →
    later ≤ steps.length → (doc.trail start steps)[later]? = some .nothing
  vacant : Node.nothing.Vacant doc

theorem answers_of_inside {doc : Document} {node : Node} (sound : doc.Sound)
    (inside : node.Inside doc) : Checked.Answers doc node where
  name_eq := Checked.name_eq inside
  matchesName_eq := Checked.matchesName_eq inside
  attr_eq := Checked.attr_eq inside
  text_eq := Checked.text_eq inside
  value_eq := Checked.value_eq sound inside
  documentIndex_eq := Checked.documentIndex_eq inside
  line_eq := Checked.line_eq inside
  column_eq := Checked.column_eq inside
  hasStyle_eq := Checked.hasStyle_eq inside
  hasLanguage_eq := Checked.hasLanguage_eq sound inside
  hasCondition_eq := Checked.hasCondition_eq sound inside
  isSnippet_eq := Checked.isSnippet_eq sound inside
  alongWhere_eq axis _ _ _ agree := Checked.alongWhere_eq sound agree inside axis

theorem vacant_nothing (doc : Document) : Node.nothing.Vacant doc where
  name_eq := rfl
  text_eq := rfl
  value_eq := rfl
  attr_eq _ := rfl
  position_eq := rfl
  documentIndex_eq := rfl
  line_eq := rfl
  column_eq := rfl
  matchesName_eq _ := rfl
  hasStyle_eq _ := rfl
  hasLanguage_eq _ := rfl
  hasCondition_eq _ := rfl
  isSnippet_eq _ := rfl

theorem safeToWalk_ofTree (tree : Tree) (language : String) : (ofTree tree language).SafeToWalk where
  inside _ member _ := inside_trail (sound_ofTree tree language)
    (inside_start (sound_ofTree tree language) member)
  checked _ member _ := trail_eq (sound_ofTree tree language)
    (inside_start (sound_ofTree tree language) member)
  answers _ := answers_of_inside (sound_ofTree tree language)
  absorbs _ _ _ _ := trail_absorbs
  vacant := vacant_nothing _

end Document

end TopicLint
