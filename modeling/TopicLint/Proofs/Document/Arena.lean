import Mathlib.Data.List.Chain
import TopicLint.Document.Basic

/-! What reading a tree leaves behind. The elements of a forest end up behind those there were, each
with the number that the elements before it leave it and with all that is found inside; the parents
that are entered afterwards are those under which the elements were read. -/

namespace TopicLint

namespace Forest

/-- How many elements a forest holds, at every depth. -/
def count : Forest → Nat
  | nil => 0
  | text _ rest => count rest
  | note rest => count rest
  | element _ inner rest => 1 + count inner + count rest

/-- The numbers of the topmost elements, if the elements are numbered from `next`. -/
def tops (next : Nat) : Forest → List Nat
  | nil => []
  | text _ rest => tops next rest
  | note rest => tops next rest
  | element _ inner rest => next :: tops (next + 1 + inner.count) rest

/-- What stands at the top of a forest, behind what has been read before. -/
def inside (next : Nat) : Forest → Inside → Inside
  | nil, before => before
  | text run rest, before => inside next rest (before.addText run)
  | note rest, before => inside next rest before
  | element _ inner rest, before => inside (next + 1 + inner.count) rest (before.addElement next)

end Forest

/-- The element that stands for a tree under a number, behind some siblings. -/
def Tree.element (tree : Tree) (id index : Nat) : Element :=
  (tree.tag.opened id index).closed (tree.inner.inside (id + 1) .empty) (id + 1 + tree.inner.count)

namespace Forest

def elements (next index : Nat) : Forest → List Element
  | nil => []
  | text _ rest => elements next index rest
  | note rest => elements next index rest
  | element tag inner rest =>
      Tree.element ⟨tag, inner⟩ next index ::
        (elements (next + 1) 0 inner ++ elements (next + 1 + inner.count) (index + 1) rest)

/-- The parents of the elements of a forest, of which the topmost have the given one. -/
def parents (parent : Option Nat) (next : Nat) : Forest → List (Option Nat)
  | nil => []
  | text _ rest => parents parent next rest
  | note rest => parents parent next rest
  | element _ inner rest =>
      parent :: (parents (some next) (next + 1) inner ++ parents parent (next + 1 + inner.count) rest)

theorem length_elements (forest : Forest) (next index : Nat) :
    (forest.elements next index).length = forest.count := by
  induction forest generalizing next index with
  | nil => rfl
  | text run rest ih => exact ih next index
  | note rest ih => exact ih next index
  | element tag inner rest inside after =>
    simp only [elements, count, List.length_cons, List.length_append, inside, after]
    omega

theorem length_parents (forest : Forest) (parent : Option Nat) (next : Nat) :
    (forest.parents parent next).length = forest.count := by
  induction forest generalizing parent next with
  | nil => rfl
  | text run rest ih => exact ih parent next
  | note rest ih => exact ih parent next
  | element tag inner rest inside after =>
    simp only [parents, count, List.length_cons, List.length_append, inside, after]
    omega

/-- The numbers of a forest: that of its first element, those inside, and those behind. -/
theorem range'_element (tag : Tag) (inner rest : Forest) (next : Nat) :
    List.range' next (element tag inner rest).count =
      next :: (List.range' (next + 1) inner.count ++
        List.range' (next + 1 + inner.count) rest.count) := by
  rw [List.range'_append_1, ← List.range'_succ, count]
  congr 1
  omega

end Forest

namespace Content

/-- The number of the element, if the piece is not text. -/
def id? : Content → Option Nat
  | text _ => none
  | element id => some id

/-- Two pieces in a row of which at most one is text. -/
def Apart (first second : Content) : Prop := first.id?.isSome ∨ second.id?.isSome

end Content

namespace Inside

variable {inside : Inside} {run : String} {id : Nat}

/-- The elements of the contents are the children, and no two runs of text meet. -/
structure Tidy (inside : Inside) : Prop where
  listed : inside.content.toList.filterMap Content.id? = inside.children.toList
  apart : inside.content.toList.IsChain Content.Apart

theorem children_addText : (inside.addText run).children = inside.children := by
  unfold addText
  split <;> rfl

theorem tidy_empty : empty.Tidy := ⟨rfl, List.isChain_nil⟩

theorem Tidy.addText (tidy : inside.Tidy) : (inside.addText run).Tidy := by
  obtain ⟨listed, apart⟩ := tidy
  unfold Inside.addText
  split
  next previous last =>
    obtain ⟨front, same⟩ := Array.back?_eq_some_iff.1 last
    simp only [same, Array.toList_push, List.filterMap_append] at listed apart
    obtain ⟨before, -, meets⟩ := List.isChain_append.1 apart
    constructor
    · simp only [same, Array.pop_push, Array.toList_push, List.filterMap_append]
      exact listed
    · simp only [same, Array.pop_push, Array.toList_push]
      exact List.isChain_append.2 ⟨before, List.isChain_singleton _, fun piece last second ends => by
        cases ends
        exact meets piece last (.text previous) rfl⟩
  next other =>
    constructor
    · simp [listed, Content.id?]
    · rw [Array.toList_push]
      refine List.isChain_append.2 ⟨apart, List.isChain_singleton _, ?_⟩
      intro piece last second ends
      cases piece with
      | text previous =>
        rw [Array.getLast?_toList] at last
        exact absurd last (other previous)
      | element id => exact .inl rfl

theorem Tidy.addElement (tidy : inside.Tidy) : (inside.addElement id).Tidy := by
  obtain ⟨listed, apart⟩ := tidy
  constructor
  · simp [Inside.addElement, listed, Content.id?]
  · simp only [Inside.addElement, Array.toList_push]
    refine List.isChain_append.2 ⟨apart, List.isChain_singleton _, ?_⟩
    intro piece _ second ends
    cases ends
    exact .inr rfl

end Inside

namespace Forest

theorem tidy_inside {inside : Inside} (forest : Forest) (next : Nat) (tidy : inside.Tidy) :
    (forest.inside next inside).Tidy := by
  induction forest generalizing next inside with
  | nil => exact tidy
  | text run rest ih => exact ih next tidy.addText
  | note rest ih => exact ih next tidy
  | element tag inner rest _ after => exact after _ tidy.addElement

theorem children_inside (forest : Forest) (next : Nat) (inside : Inside) :
    (forest.inside next inside).children.toList = inside.children.toList ++ forest.tops next := by
  induction forest generalizing next inside with
  | nil => exact (List.append_nil _).symm
  | text run rest ih => exact (ih next _).trans (by rw [Inside.children_addText]; rfl)
  | note rest ih => exact ih next inside
  | element tag inner rest _ after =>
    refine (after _ _).trans ?_
    simp [Inside.addElement, tops]

theorem children_element (tree : Tree) (id index : Nat) :
    (tree.element id index).children = tree.inner.tops (id + 1) :=
  children_inside tree.inner (id + 1) .empty

theorem stop_element (tree : Tree) (id index : Nat) :
    (tree.element id index).stop = id + 1 + tree.inner.count := rfl

theorem modify_opened {α : Type} (front back : List α) (opened : α) (close : α → α) :
    (front ++ opened :: back).modify front.length close = front ++ close opened :: back := by
  induction front with
  | nil => rfl
  | cons first front ih => exact congrArg (first :: ·) ih

/-- Reading a forest leaves its elements behind those there were, all of them closed. -/
theorem read_eq (forest : Forest) (elements : Array Element) (inside : Inside) :
    (forest.read elements inside).1.toList =
        elements.toList ++ forest.elements elements.size inside.children.size ∧
      (forest.read elements inside).2 = forest.inside elements.size inside := by
  induction forest generalizing elements inside with
  | nil => exact ⟨(List.append_nil _).symm, rfl⟩
  | text run rest ih =>
    have found := ih elements (inside.addText run)
    rw [Inside.children_addText] at found
    exact found
  | note rest ih => exact ih elements inside
  | element tag inner rest within after =>
    obtain ⟨filled, found⟩ :=
      within (elements.push (tag.opened elements.size inside.children.size)) .empty
    rw [Array.size_push] at filled found
    unfold read
    dsimp only
    generalize inner.read (elements.push _) .empty = result at filled found ⊢
    rw [Array.toList_push, List.append_assoc, List.singleton_append] at filled
    -- The element is closed where it was opened, in front of all that was read inside.
    have size : result.1.size = elements.size + 1 + inner.count := by
      rw [← Array.length_toList, filled, List.length_append, List.length_cons, length_elements,
        Array.length_toList]
      omega
    have closed : (result.1.modify elements.size (·.closed result.2 result.1.size)).toList =
        elements.toList ++ Tree.element ⟨tag, inner⟩ elements.size inside.children.size ::
          inner.elements (elements.size + 1) 0 := by
      rw [Array.toList_modify, filled, ← Array.length_toList, modify_opened, found, size]
      rfl
    have read := after (result.1.modify elements.size (·.closed result.2 result.1.size))
      (inside.addElement elements.size)
    rw [Array.size_modify, closed, size] at read
    rw [size]
    refine ⟨read.1.trans ?_, read.2⟩
    rw [List.append_assoc, Inside.addElement, Array.size_push]
    rfl

end Forest

section Parents

variable {id start k child : Nat} {element : Element} {children : List Nat} {elements : List Element}
  {parents : Array (Option Nat)}

theorem size_enterChildren : (enterChildren id children parents).size = parents.size := by
  induction children generalizing parents with
  | nil => rfl
  | cons first rest ih => exact ih.trans Array.size_setIfInBounds

theorem size_enterParents : (enterParents start elements parents).size = parents.size := by
  induction elements generalizing start parents with
  | nil => rfl
  | cons first rest ih => exact ih.trans size_enterChildren

theorem enterChildren_of_notMem (unlisted : child ∉ children) :
    (enterChildren id children parents)[child]? = parents[child]? := by
  induction children generalizing parents with
  | nil => rfl
  | cons first rest ih =>
    rw [List.mem_cons, not_or] at unlisted
    exact (ih unlisted.2).trans (Array.getElem?_setIfInBounds_ne (Ne.symm unlisted.1))

theorem enterChildren_of_mem (listed : child ∈ children) (small : child < parents.size) :
    (enterChildren id children parents)[child]? = some (some id) := by
  induction children generalizing parents with
  | nil => cases listed
  | cons first rest ih =>
    by_cases later : child ∈ rest
    · exact ih later (by rwa [Array.size_setIfInBounds])
    · obtain rfl : child = first := (List.mem_cons.1 listed).resolve_right later
      exact (enterChildren_of_notMem later).trans (Array.getElem?_setIfInBounds_self_of_lt small)

theorem enterParents_of_unlisted (unlisted : ∀ element ∈ elements, child ∉ element.children) :
    (enterParents start elements parents)[child]? = parents[child]? := by
  induction elements generalizing start parents with
  | nil => rfl
  | cons first rest ih =>
    rw [List.forall_mem_cons] at unlisted
    exact (ih unlisted.2).trans (enterChildren_of_notMem unlisted.1)

/-- What just one element lists gets that element for a parent. -/
theorem enterParents_of_listed (small : child < parents.size) (found : elements[k]? = some element)
    (listed : child ∈ element.children)
    (only : ∀ j other, elements[j]? = some other → child ∈ other.children → j = k) :
    (enterParents start elements parents)[child]? = some (some (start + k)) := by
  induction elements generalizing start k parents with
  | nil => cases found
  | cons first rest ih =>
    cases k with
    | zero =>
      cases found
      have unlisted : ∀ other ∈ rest, child ∉ other.children := by
        intro other member lists
        obtain ⟨j, there⟩ := List.mem_iff_getElem?.1 member
        exact absurd (only (j + 1) other there lists) (Nat.succ_ne_zero j)
      exact (enterParents_of_unlisted unlisted).trans (enterChildren_of_mem listed small)
    | succ k =>
      have later : (enterParents (start + 1) rest (enterChildren start first.children parents))[child]? =
          some (some (start + 1 + k)) :=
        ih (by rwa [size_enterChildren]) found fun j other there lists =>
          Nat.succ.inj (only (j + 1) other there lists)
      rw [Nat.add_right_comm] at later
      exact later

end Parents

end TopicLint
