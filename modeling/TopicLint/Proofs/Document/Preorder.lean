import TopicLint.Proofs.Document.Arena

/-! The elements of a document are those of its tree in the order of their start tags. A subtree
is laid out in one piece: behind its top come the subtrees of the children, one after the other.
From the place where a subtree is laid out follow the numbers of children, parents and siblings. -/

namespace TopicLint

namespace Forest

/-- The elements at the top of a forest, each with what is inside. -/
def trees : Forest → List Tree
  | nil => []
  | text _ rest => trees rest
  | note rest => trees rest
  | element tag inner rest => ⟨tag, inner⟩ :: trees rest

/-- The elements of a forest at every depth, each with what is inside, in the order of their start
tags. -/
def subtrees : Forest → List Tree
  | nil => []
  | text _ rest => subtrees rest
  | note rest => subtrees rest
  | element tag inner rest => ⟨tag, inner⟩ :: (subtrees inner ++ subtrees rest)

theorem length_subtrees (forest : Forest) : forest.subtrees.length = forest.count := by
  induction forest with
  | nil => rfl
  | text run rest ih => exact ih
  | note rest ih => exact ih
  | element tag inner rest inside after =>
    simp only [subtrees, count, List.length_cons, List.length_append, inside, after]
    omega

theorem length_tops (forest : Forest) (next : Nat) :
    (forest.tops next).length = forest.trees.length := by
  induction forest generalizing next with
  | nil => rfl
  | text run rest ih => exact ih next
  | note rest ih => exact ih next
  | element tag inner rest inside after => exact congrArg (· + 1) (after _)

theorem le_of_mem_tops {forest : Forest} {next id : Nat} (member : id ∈ forest.tops next) :
    next ≤ id := by
  induction forest generalizing next with
  | nil => cases member
  | text run rest ih => exact ih member
  | note rest ih => exact ih member
  | element tag inner rest inside after =>
    rcases List.mem_cons.1 member with rfl | later
    · exact Nat.le_refl _
    · have bound := after later
      omega

theorem pairwise_tops (forest : Forest) (next : Nat) : (forest.tops next).Pairwise (· < ·) := by
  induction forest generalizing next with
  | nil => exact List.Pairwise.nil
  | text run rest ih => exact ih next
  | note rest ih => exact ih next
  | element tag inner rest inside after =>
    refine List.pairwise_cons.2 ⟨fun id member => ?_, after _⟩
    have bound := le_of_mem_tops member
    omega

end Forest

/-- The elements of a tree, each with what is inside, in the order of their start tags. -/
def Tree.subtrees (tree : Tree) : List Tree := (Forest.element tree.tag tree.inner .nil).subtrees

theorem prefix_split {α : Type} {head : α} {inside after all : List α} {next : Nat}
    (found : head :: (inside ++ after) <+: all.drop next) :
    all[next]? = some head ∧ inside <+: all.drop (next + 1) ∧
      after <+: all.drop (next + 1 + inside.length) := by
  obtain ⟨behind, whole⟩ := found
  refine ⟨?_, ⟨after ++ behind, ?_⟩, ⟨behind, ?_⟩⟩
  · have first : (all.drop next)[0]? = some head := by
      rw [← whole]
      rfl
    simpa only [List.getElem?_drop, Nat.add_zero] using first
  · rw [← List.drop_drop, ← whole]
    simp
  · rw [← List.drop_drop, ← List.drop_drop, ← whole]
    simp

/-- The subtrees of a forest, the elements that stand for them and the parents of these are found in
three lists from the same number on. -/
structure Laid (whole : List Tree) (all : List Element) (ups : List (Option Nat))
    (parent : Option Nat) (next index : Nat) (forest : Forest) : Prop where
  trees : forest.subtrees <+: whole.drop next
  elements : forest.elements next index <+: all.drop next
  parents : forest.parents parent next <+: ups.drop next

/-- A tree is found under a number, with its element, its parent, and what is inside behind it. -/
structure Stands (whole : List Tree) (all : List Element) (ups : List (Option Nat)) (tree : Tree)
    (parent : Option Nat) (id index : Nat) : Prop where
  tree_eq : whole[id]? = some tree
  element_eq : all[id]? = some (tree.element id index)
  parent_eq : ups[id]? = some parent
  inside : Laid whole all ups (some id) (id + 1) 0 tree.inner

section Places

variable {whole : List Tree} {all : List Element} {ups : List (Option Nat)} {parent : Option Nat}
  {next index : Nat} {tag : Tag} {inner rest forest : Forest}

theorem Laid.stands (laid : Laid whole all ups parent next index (.element tag inner rest)) :
    Stands whole all ups ⟨tag, inner⟩ parent next index := by
  obtain ⟨tree, insideTrees, -⟩ := prefix_split laid.trees
  obtain ⟨element, insideElements, -⟩ := prefix_split laid.elements
  obtain ⟨up, insideParents, -⟩ := prefix_split laid.parents
  exact ⟨tree, element, up, insideTrees, insideElements, insideParents⟩

theorem Laid.after (laid : Laid whole all ups parent next index (.element tag inner rest)) :
    Laid whole all ups parent (next + 1 + inner.count) (index + 1) rest := by
  obtain ⟨-, -, trees⟩ := prefix_split laid.trees
  obtain ⟨-, -, elements⟩ := prefix_split laid.elements
  obtain ⟨-, -, parents⟩ := prefix_split laid.parents
  rw [Forest.length_subtrees] at trees
  rw [Forest.length_elements] at elements
  rw [Forest.length_parents] at parents
  exact ⟨trees, elements, parents⟩

/-- The children of an element are found under the numbers that it lists, in order. -/
theorem Laid.child {k id : Nat} (laid : Laid whole all ups parent next index forest)
    (listed : (forest.tops next)[k]? = some id) :
    ∃ tree, forest.trees[k]? = some tree ∧ Stands whole all ups tree parent id (index + k) ∧
      next ≤ id ∧ id + 1 + tree.inner.count ≤ next + forest.count := by
  induction forest generalizing next index k with
  | nil => simp [Forest.tops] at listed
  | text run rest ih => exact ih ⟨laid.trees, laid.elements, laid.parents⟩ listed
  | note rest ih => exact ih ⟨laid.trees, laid.elements, laid.parents⟩ listed
  | element tag inner rest inside after =>
    cases k with
    | zero =>
      obtain rfl : next = id := by simpa [Forest.tops] using listed
      refine ⟨⟨tag, inner⟩, rfl, laid.stands, Nat.le_refl _, ?_⟩
      simp only [Forest.count]
      omega
    | succ k =>
      obtain ⟨tree, found, stands, low, high⟩ := after laid.after (by simpa [Forest.tops] using listed)
      rw [Nat.add_assoc, Nat.add_comm 1] at stands
      refine ⟨tree, found, stands, by omega, ?_⟩
      simp only [Forest.count]
      omega

/-- Every number in the range of a forest is that of a subtree, which is at the top of the forest or
listed among the children of an element of the forest before it. -/
theorem Laid.subtree {id : Nat} (laid : Laid whole all ups parent next index forest) (low : next ≤ id)
    (high : id < next + forest.count) :
    ∃ tree up place, Stands whole all ups tree up id place ∧
      ((up = parent ∧ ∃ k, place = index + k ∧ (forest.tops next)[k]? = some id) ∨
        ∃ above element, up = some above ∧ next ≤ above ∧ above < id ∧
          all[above]? = some element ∧ element.children[place]? = some id) := by
  induction forest generalizing parent next index with
  | nil =>
    simp only [Forest.count] at high
    omega
  | text run rest ih => exact ih ⟨laid.trees, laid.elements, laid.parents⟩ low high
  | note rest ih => exact ih ⟨laid.trees, laid.elements, laid.parents⟩ low high
  | element tag inner rest inside after =>
    simp only [Forest.count] at high
    by_cases top : id = next
    · subst top
      exact ⟨_, _, _, laid.stands, .inl ⟨rfl, 0, rfl, rfl⟩⟩
    by_cases within : id < next + 1 + inner.count
    · obtain ⟨tree, up, place, stands, found⟩ := inside laid.stands.inside (by omega) within
      refine ⟨tree, up, place, stands, .inr ?_⟩
      rcases found with ⟨rfl, k, rfl, listed⟩ | deeper
      · exact ⟨next, _, rfl, Nat.le_refl _, by omega, laid.stands.element_eq,
          by simpa [Forest.children_element] using listed⟩
      · obtain ⟨above, element, same, lower, deeper⟩ := deeper
        exact ⟨above, element, same, by omega, deeper⟩
    · obtain ⟨tree, up, place, stands, found⟩ := after laid.after (by omega) (by omega)
      refine ⟨tree, up, place, stands, ?_⟩
      rcases found with ⟨same, k, rfl, listed⟩ | deeper
      · exact .inl ⟨same, k + 1, by omega, listed⟩
      · obtain ⟨above, element, same, lower, deeper⟩ := deeper
        exact .inr ⟨above, element, same, by omega, deeper⟩

end Places

/-- Numbers of elements of which the first is given and each later one is where the subtree before
it stops, up to the last one, which stops at a given number. -/
def Consecutive (all : List Element) : Nat → List Nat → Nat → Prop
  | next, [], stop => next = stop
  | next, id :: rest, stop =>
      id = next ∧ ∃ element, all[id]? = some element ∧ Consecutive all element.stop rest stop

namespace Consecutive

variable {all : List Element} {next stop k id other : Nat} {ids : List Nat} {element : Element}

theorem first (consecutive : Consecutive all next ids stop) (listed : ids[0]? = some id) : id = next := by
  cases ids with
  | nil => cases listed
  | cons head rest =>
    cases listed
    exact consecutive.1

theorem step (consecutive : Consecutive all next ids stop) (listed : ids[k]? = some id)
    (found : all[id]? = some element) (behind : ids[k + 1]? = some other) : other = element.stop := by
  induction ids generalizing next k with
  | nil => cases listed
  | cons head rest ih =>
    obtain ⟨-, here, top, more⟩ := consecutive
    cases k with
    | zero =>
      cases listed
      cases top.symm.trans found
      exact more.first behind
    | succ k => exact ih more listed behind

theorem last (consecutive : Consecutive all next ids stop) (listed : ids.getLast? = some id) :
    all[id]?.map (·.stop) = some stop := by
  induction ids generalizing next with
  | nil => cases listed
  | cons head rest ih =>
    obtain ⟨-, here, top, more⟩ := consecutive
    cases rest with
    | nil =>
      obtain rfl : head = id := Option.some.inj listed
      rw [top, Option.map_some, show here.stop = stop from more]
    | cons second rest => exact ih more (List.getLast?_cons_cons.symm.trans listed)

end Consecutive

namespace Forest

/-- The children of the elements of a forest follow each other: each is the number behind the
subtree of the one before it. -/
theorem tops_consecutive {whole : List Tree} {all : List Element} {ups : List (Option Nat)}
    {parent : Option Nat} {next index : Nat} {forest : Forest}
    (laid : Laid whole all ups parent next index forest) :
    Consecutive all next (forest.tops next) (next + forest.count) := by
  induction forest generalizing parent next index with
  | nil => exact rfl
  | text run rest ih => exact ih ⟨laid.trees, laid.elements, laid.parents⟩
  | note rest ih => exact ih ⟨laid.trees, laid.elements, laid.parents⟩
  | element tag inner rest inside after =>
    have stop : next + (element tag inner rest).count = next + 1 + inner.count + rest.count := by
      simp only [count]
      omega
    rw [stop]
    exact ⟨rfl, _, laid.stands.element_eq, after laid.after⟩

end Forest

/-- What an element says of itself is what the start of a tree says. -/
structure Element.Describes (element : Element) (tag : Tag) : Prop where
  tag_eq : element.tag = tag.name.expanded
  name_eq : element.name = tag.name.shown
  attributes_eq : element.attributes = tag.attributes.map fun (name, value) => (name.expanded, value)
  line_eq : element.line = tag.line
  column_eq : element.column = tag.column

namespace Document

/-- A document encodes a tree: it numbers the elements of the tree in the order of their start tags,
from the root on, and what it says of children, siblings, parents and ends of subtrees fits. -/
structure Encodes (doc : Document) (tree : Tree) : Prop where
  size_eq : doc.size = tree.subtrees.length
  root_eq : tree.subtrees[0]? = some tree
  /-- An element describes the subtree with its number; its children are the elements directly
  inside, in order. -/
  describes : ∀ id element, doc.element? id = some element →
    ∃ subtree, tree.subtrees[id]? = some subtree ∧ element.Describes subtree.tag ∧
      element.children.map (tree.subtrees[·]?) = subtree.inner.trees.map some
  lt_stop : ∀ id element, doc.element? id = some element → id < element.stop
  stop_le : ∀ id element, doc.element? id = some element → element.stop ≤ doc.size
  first_child : ∀ id element child, doc.element? id = some element →
    element.children[0]? = some child → child = id + 1
  next_child : ∀ id element k child inside other, doc.element? id = some element →
    element.children[k]? = some child → doc.element? child = some inside →
    element.children[k + 1]? = some other → other = inside.stop
  stop_of_last : ∀ id element child, doc.element? id = some element →
    element.children.getLast? = some child → (doc.element? child).map (·.stop) = some element.stop
  stop_of_childless : ∀ id element, doc.element? id = some element → element.children = [] →
    element.stop = id + 1
  index_child : ∀ id element k child, doc.element? id = some element →
    element.children[k]? = some child → (doc.element? child).map (·.index) = some k
  parent_iff : ∀ id child, doc.parent? child = some id ↔ child ∈ doc.children id
  parent_root : doc.parent? 0 = none
  parent_inside : ∀ id, 0 < id → id < doc.size → ∃ parent < id, doc.parent? id = some parent
  parent_outside : ∀ id, doc.size ≤ id → doc.parent? id = none
  sibling : ∀ id element, doc.element? id = some element →
    (doc.siblings id)[element.index]? = some id
  content_elements : ∀ id element, doc.element? id = some element →
    element.content.filterMap Content.id? = element.children
  content_apart : ∀ id element, doc.element? id = some element →
    element.content.IsChain Content.Apart

section Facts

variable {tree : Tree} {language : String} {id : Nat} {element : Element}

/-- The forest that consists of the root only. -/
abbrev rootOnly (tree : Tree) : Forest := .element tree.tag tree.inner .nil

theorem count_root (tree : Tree) : (rootOnly tree).count = tree.subtrees.length :=
  (Forest.length_subtrees _).symm

theorem elements_ofTree (tree : Tree) (language : String) :
    (ofTree tree language).elements.toList = (rootOnly tree).elements 0 0 :=
  ((rootOnly tree).read_eq #[] .empty).1

theorem size_ofTree : (ofTree tree language).size = tree.subtrees.length := by
  unfold size Tree.subtrees
  rw [← Array.length_toList, elements_ofTree, Forest.length_elements, Forest.length_subtrees]

theorem element?_eq (doc : Document) : doc.element? id = doc.elements.toList[id]? := by
  unfold element?
  rw [Array.getElem?_toList]

theorem laid_root (tree : Tree) : Laid tree.subtrees ((rootOnly tree).elements 0 0)
    ((rootOnly tree).parents none 0) none 0 0 (rootOnly tree) :=
  ⟨List.prefix_rfl, List.prefix_rfl, List.prefix_rfl⟩

/-- An element that lists a child is the parent under which the child was read. -/
theorem parent_of_listed {tree : Tree} {id child : Nat} {element : Element}
    (found : ((rootOnly tree).elements 0 0)[id]? = some element) (listed : child ∈ element.children) :
    ((rootOnly tree).parents none 0)[child]? = some (some id) := by
  have small := (List.getElem?_eq_some_iff.1 found).1
  rw [Forest.length_elements] at small
  obtain ⟨subtree, up, place, stands, -⟩ := (laid_root tree).subtree (Nat.zero_le id) (by omega)
  obtain rfl := Option.some.inj (found.symm.trans stands.element_eq)
  rw [Forest.children_element] at listed
  obtain ⟨k, listed⟩ := List.mem_iff_getElem?.1 listed
  obtain ⟨_, -, within, -⟩ := stands.inside.child listed
  exact within.parent_eq

/-- The parents that are entered at the end are those under which the elements were read. -/
theorem parents_ofTree (tree : Tree) (language : String) :
    (ofTree tree language).parents.toList = (rootOnly tree).parents none 0 := by
  apply List.ext_getElem?
  intro child
  have elements := elements_ofTree tree language
  have size : (ofTree tree language).elements.size = (rootOnly tree).count := by
    rw [← Array.length_toList, elements, Forest.length_elements]
  rw [Array.getElem?_toList]
  change (enterParents 0 (ofTree tree language).elements.toList
    (Array.replicate (ofTree tree language).elements.size none))[child]? = _
  rw [elements, size]
  by_cases small : child < (rootOnly tree).count
  · have there : child < (Array.replicate (rootOnly tree).count (none : Option Nat)).size := by
      rwa [Array.size_replicate]
    obtain ⟨_, up, place, stands, found⟩ := (laid_root tree).subtree (Nat.zero_le child) (by omega)
    rw [stands.parent_eq]
    -- No entry is overwritten: whoever lists the child is the parent it was read under.
    have only (j : Nat) (other : Element) (found : ((rootOnly tree).elements 0 0)[j]? = some other)
        (listed : child ∈ other.children) : up = some j :=
      Option.some.inj (stands.parent_eq.symm.trans (parent_of_listed found listed))
    rcases found with ⟨rfl, -⟩ | ⟨above, element, rfl, -, -, outer, listed⟩
    · rw [enterParents_of_unlisted]
      · rw [Array.getElem?_replicate, if_pos small]
      · intro element member listed
        obtain ⟨j, found⟩ := List.mem_iff_getElem?.1 member
        exact absurd (only j element found listed) (Option.some_ne_none j).symm
    · rw [enterParents_of_listed there outer (List.mem_of_getElem? listed)
        fun j other found listed => (Option.some.inj (only j other found listed)).symm, Nat.zero_add]
  · rw [Array.getElem?_eq_none, List.getElem?_eq_none]
    · rw [Forest.length_parents]
      omega
    · rw [size_enterParents, Array.size_replicate]
      omega

/-- A tree is that of the element with a number. -/
abbrev Holds (doc : Document) (tree subtree : Tree) (parent : Option Nat) (id index : Nat) : Prop :=
  Stands tree.subtrees doc.elements.toList doc.parents.toList subtree parent id index

theorem laid_ofTree (tree : Tree) (language : String) :
    Laid tree.subtrees (ofTree tree language).elements.toList (ofTree tree language).parents.toList none
      0 0 (rootOnly tree) := by
  rw [elements_ofTree, parents_ofTree]
  exact laid_root tree

/-- An element is the root, or its parent stands before it and lists it among its children. -/
def Hangs (doc : Document) (parent : Option Nat) (id index : Nat) : Prop :=
  (parent = none ∧ id = 0 ∧ index = 0) ∨ ∃ above element, parent = some above ∧ above < id ∧
    doc.element? above = some element ∧ element.children[index]? = some id

/-- Every element stands for a subtree and hangs below its parent. -/
theorem exists_holds (small : id < (ofTree tree language).size) :
    ∃ subtree up place, Holds (ofTree tree language) tree subtree up id place ∧
      Hangs (ofTree tree language) up id place := by
  rw [size_ofTree, ← count_root] at small
  obtain ⟨subtree, up, place, stands, found⟩ :=
    (laid_ofTree tree language).subtree (Nat.zero_le id) (by omega)
  refine ⟨subtree, up, place, stands, ?_⟩
  rcases found with ⟨rfl, k, rfl, listed⟩ | ⟨above, element, same, -, less, found, listed⟩
  · cases k with
    | zero => exact .inl ⟨rfl, by simpa [Forest.tops] using listed.symm, rfl⟩
    | succ k => simp [Forest.tops] at listed
  · exact .inr ⟨above, element, same, less, (element?_eq _).trans found, listed⟩

theorem Holds.element?_eq {subtree : Tree} {up : Option Nat} {place : Nat}
    (holds : Holds (ofTree tree language) tree subtree up id place) :
    (ofTree tree language).element? id = some (subtree.element id place) :=
  (Document.element?_eq _).trans holds.element_eq

theorem holds_of_element? (found : (ofTree tree language).element? id = some element) :
    ∃ subtree up place, element = subtree.element id place ∧
      Holds (ofTree tree language) tree subtree up id place ∧
      Hangs (ofTree tree language) up id place := by
  have small : id < (ofTree tree language).size := (Array.getElem?_eq_some_iff.1 found).1
  obtain ⟨subtree, up, place, holds, above⟩ := exists_holds small
  exact ⟨subtree, up, place, Option.some.inj (found.symm.trans holds.element?_eq), holds, above⟩

/-- Child number `k` is the element directly inside with that number. Its subtree stops within that
of its parent. -/
theorem holds_child {subtree : Tree} {up : Option Nat} {place k child : Nat}
    (holds : Holds (ofTree tree language) tree subtree up id place)
    (listed : (subtree.element id place).children[k]? = some child) :
    ∃ inside, subtree.inner.trees[k]? = some inside ∧
      Holds (ofTree tree language) tree inside (some id) child k ∧
        child + 1 + inside.inner.count ≤ id + 1 + subtree.inner.count := by
  rw [Forest.children_element] at listed
  obtain ⟨inside, found, stands, -, high⟩ := holds.inside.child listed
  exact ⟨inside, found, by simpa only [Nat.zero_add] using stands, high⟩

theorem Holds.parent?_eq {subtree : Tree} {up : Option Nat} {place : Nat}
    (holds : Holds (ofTree tree language) tree subtree up id place) :
    (ofTree tree language).parent? id = up := by
  unfold parent?
  rw [← Array.getElem?_toList, holds.parent_eq]
  rfl

theorem children_eq (doc : Document) (found : doc.element? id = some element) :
    doc.children id = element.children := by
  unfold children
  rw [found]
  rfl

theorem exists_of_getElem?_children {doc : Document} {k child : Nat}
    (listed : (doc.children id)[k]? = some child) :
    ∃ element : Element, doc.element? id = some element ∧ element.children[k]? = some child := by
  unfold children at listed
  cases found : doc.element? id with
  | none => simp [found] at listed
  | some element =>
    rw [found] at listed
    exact ⟨element, rfl, listed⟩

/-- Child number `k` has the index `k`, and the element that lists it is its parent. -/
theorem parent?_and_index_of_child {k child : Nat}
    (listed : ((ofTree tree language).children id)[k]? = some child) :
    (ofTree tree language).parent? child = some id ∧
      ((ofTree tree language).element? child).map (·.index) = some k := by
  obtain ⟨element, found, listed⟩ := exists_of_getElem?_children listed
  obtain ⟨subtree, up, place, rfl, holds, -⟩ := holds_of_element? found
  obtain ⟨inside, -, within, -⟩ := holds_child holds listed
  exact ⟨within.parent?_eq, by rw [within.element?_eq]; rfl⟩

theorem parent?_eq_none (outside : (ofTree tree language).size ≤ id) :
    (ofTree tree language).parent? id = none := by
  unfold parent?
  rw [Array.getElem?_eq_none]
  · rfl
  · rwa [← Array.length_toList, parents_ofTree, Forest.length_parents, count_root, ← size_ofTree]

theorem child_of_parent? {child : Nat} (up : (ofTree tree language).parent? child = some id) :
    id < child ∧ child ∈ (ofTree tree language).children id := by
  by_cases small : child < (ofTree tree language).size
  · obtain ⟨subtree, parent, place, holds, top | above⟩ := exists_holds small
    · rw [holds.parent?_eq, top.1] at up
      cases up
    · obtain ⟨above, outer, rfl, less, found, listed⟩ := above
      rw [holds.parent?_eq] at up
      cases up
      rw [children_eq _ found]
      exact ⟨less, List.mem_of_getElem? listed⟩
  · rw [parent?_eq_none (Nat.le_of_not_lt small)] at up
    cases up

theorem parent?_lt {parent : Nat} (up : (ofTree tree language).parent? id = some parent) :
    parent < id := (child_of_parent? up).1

theorem parent?_eq_some_iff {child : Nat} : (ofTree tree language).parent? child = some id ↔
    child ∈ (ofTree tree language).children id := by
  constructor
  · exact fun up => (child_of_parent? up).2
  · intro member
    obtain ⟨k, listed⟩ := List.mem_iff_getElem?.1 member
    exact (parent?_and_index_of_child listed).1

theorem describes_element (found : (ofTree tree language).element? id = some element) :
    ∃ subtree, tree.subtrees[id]? = some subtree ∧ element.Describes subtree.tag ∧
      element.children.map (tree.subtrees[·]?) = subtree.inner.trees.map some := by
  obtain ⟨subtree, up, place, rfl, holds, -⟩ := holds_of_element? found
  refine ⟨subtree, holds.tree_eq, ⟨rfl, rfl, rfl, rfl, rfl⟩, ?_⟩
  apply List.ext_getElem?
  intro k
  rw [List.getElem?_map, List.getElem?_map]
  cases listed : (subtree.element id place).children[k]? with
  | none =>
    have short := List.getElem?_eq_none_iff.1 listed
    rw [Forest.children_element] at short
    rw [List.getElem?_eq_none ((Forest.length_tops _ _).symm.trans_le short)]
    rfl
  | some child =>
    obtain ⟨inside, same, within, -⟩ := holds_child holds listed
    rw [same]
    exact congrArg some within.tree_eq

theorem consecutive_children (found : (ofTree tree language).element? id = some element) :
    Consecutive (ofTree tree language).elements.toList (id + 1) element.children element.stop := by
  obtain ⟨subtree, up, place, rfl, holds, -⟩ := holds_of_element? found
  rw [Forest.children_element]
  exact Forest.tops_consecutive holds.inside

theorem stop_le_size (found : (ofTree tree language).element? id = some element) :
    element.stop ≤ (ofTree tree language).size := by
  have small : id < (ofTree tree language).size := (Array.getElem?_eq_some_iff.1 found).1
  obtain ⟨subtree, up, place, rfl, holds, -⟩ := holds_of_element? found
  have bound := holds.inside.elements.length_le
  rw [Forest.length_elements, List.length_drop, Array.length_toList] at bound
  rw [Forest.stop_element]
  unfold size at *
  omega

theorem exists_parent (later : 0 < id) (small : id < (ofTree tree language).size) :
    ∃ parent < id, (ofTree tree language).parent? id = some parent := by
  obtain ⟨subtree, up, place, holds, top | above⟩ := exists_holds small
  · omega
  · obtain ⟨above, outer, rfl, less, -, -⟩ := above
    exact ⟨above, less, holds.parent?_eq⟩

theorem parent?_root : (ofTree tree language).parent? 0 = none := by
  cases up : (ofTree tree language).parent? 0 with
  | none => rfl
  | some parent => exact absurd (parent?_lt up) (Nat.not_lt_zero _)

theorem siblings_of_parent {doc : Document} {parent : Nat} (up : doc.parent? id = some parent) :
    doc.siblings id = doc.children parent := by
  unfold siblings
  rw [up]

theorem siblings_of_root {doc : Document} (up : doc.parent? id = none) : doc.siblings id = [0] := by
  unfold siblings
  rw [up]

theorem getElem?_siblings (found : (ofTree tree language).element? id = some element) :
    ((ofTree tree language).siblings id)[element.index]? = some id := by
  obtain ⟨subtree, up, place, rfl, holds, top | above⟩ := holds_of_element? found
  · obtain ⟨rfl, rfl, rfl⟩ := top
    rw [siblings_of_root holds.parent?_eq]
    rfl
  · obtain ⟨above, outer, rfl, -, outerFound, listed⟩ := above
    rw [siblings_of_parent holds.parent?_eq, children_eq _ outerFound]
    exact listed

/-- The document of a tree encodes the tree. -/
theorem encodes_ofTree (tree : Tree) (language : String) : (ofTree tree language).Encodes tree where
  size_eq := size_ofTree
  root_eq := rfl
  describes _ _ found := describes_element found
  lt_stop id element found := by
    obtain ⟨subtree, up, place, rfl, -⟩ := holds_of_element? found
    rw [Forest.stop_element]
    omega
  stop_le _ _ found := stop_le_size found
  first_child _ _ _ found listed := (consecutive_children found).first listed
  next_child _ _ _ _ _ _ found listed inside behind :=
    (consecutive_children found).step listed ((element?_eq _).symm.trans inside) behind
  stop_of_last _ _ _ found listed := by
    rw [element?_eq]
    exact (consecutive_children found).last listed
  stop_of_childless id element found childless := by
    have consecutive := consecutive_children found
    rw [childless] at consecutive
    exact consecutive.symm
  index_child _ _ _ _ found listed :=
    (parent?_and_index_of_child (by rw [children_eq _ found]; exact listed)).2
  parent_iff _ _ := parent?_eq_some_iff
  parent_root := parent?_root
  parent_inside _ := exists_parent
  parent_outside _ := parent?_eq_none
  sibling _ _ := getElem?_siblings
  content_elements _ _ found := by
    obtain ⟨subtree, up, place, rfl, -⟩ := holds_of_element? found
    exact (Forest.tidy_inside _ _ Inside.tidy_empty).listed
  content_apart _ _ found := by
    obtain ⟨subtree, up, place, rfl, -⟩ := holds_of_element? found
    exact (Forest.tidy_inside _ _ Inside.tidy_empty).apart

end Facts

end Document

end TopicLint
