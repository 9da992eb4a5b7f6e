import TopicLint.Document.Node
import TopicLint.Proofs.Document.Preorder

/-! The axes of a document are the relations of its tree. Descendants are a range of numbers,
ancestors a chain of parents, and siblings are parts of the list of children of the parent; the
three agree on all pairs of elements. -/

namespace TopicLint

namespace Document

section Siblings

variable {tree : Tree} {language : String} {id other k : Nat}

theorem exists_element {doc : Document} (small : id < doc.size) :
    ∃ element, doc.element? id = some element := ⟨_, Array.getElem?_eq_getElem small⟩

theorem lt_size_of_element? {doc : Document} {element : Element}
    (found : doc.element? id = some element) : id < doc.size :=
  (Array.getElem?_eq_some_iff.1 found).1

variable {element second : Element}

theorem index_eq {doc : Document} (found : doc.element? id = some element) :
    walk.index doc id = element.index := by
  unfold walk.index
  rw [found]
  rfl

theorem stop_eq {doc : Document} (found : doc.element? id = some element) :
    walk.stop doc id = element.stop := by
  unfold walk.stop
  rw [found]
  rfl

/-- An element stands between its earlier and its later siblings. -/
theorem siblings_eq (here : (ofTree tree language).element? id = some element) :
    ((ofTree tree language).walk id .precedingSibling).reverse ++
      id :: (ofTree tree language).walk id .followingSibling = (ofTree tree language).siblings id := by
  have listed := getElem?_siblings here
  obtain ⟨bound, same⟩ := List.getElem?_eq_some_iff.1 listed
  have cut := List.drop_eq_getElem_cons bound
  rw [same] at cut
  simp only [walk, index_eq here, List.reverse_reverse]
  rw [← cut, List.take_append_drop]

end Siblings

/-- Visits elements one after the other, each with what is inside before the next one. -/
inductive Visits (doc : Document) : List Nat → List Nat → Prop where
  | done : Visits doc [] []
  | enter {id : Nat} {rest inside after : List Nat} (children : Visits doc (doc.children id) inside)
      (others : Visits doc rest after) : Visits doc (id :: rest) (id :: (inside ++ after))

theorem Visits.unique {doc : Document} {ids first second : List Nat} (one : Visits doc ids first)
    (two : Visits doc ids second) : first = second := by
  induction one generalizing second with
  | done => cases two; rfl
  | enter children others inside after =>
    cases two with
    | enter children' others' => rw [inside children', after others']

section Descendants

variable {tree : Tree} {language : String} {id other : Nat} {element second : Element}

theorem mem_descendant_iff {doc : Document} :
    other ∈ doc.walk id .descendant ↔ id < other ∧ other < walk.stop doc id := by
  simp only [walk, List.mem_range'_1]
  omega

end Descendants

section Ancestors

variable {tree : Tree} {language : String} {id other parent : Nat}

theorem ancestors_of_parent (up : (ofTree tree language).parent? id = some parent) :
    (ofTree tree language).ancestors id = parent :: (ofTree tree language).ancestors parent := by
  rw [ancestors, up]
  exact if_pos (parent?_lt up)

theorem ancestors_of_root {doc : Document} (up : doc.parent? id = none) : doc.ancestors id = [] := by
  rw [ancestors, up]

theorem lt_stop (small : id < (ofTree tree language).size) :
    id < walk.stop (ofTree tree language) id := by
  obtain ⟨element, found⟩ := exists_element small
  obtain ⟨subtree, up, place, rfl, -⟩ := holds_of_element? found
  rw [stop_eq found, Forest.stop_element]
  omega

/-- The subtree of an element stops within that of its parent. -/
theorem stop_le_parent (up : (ofTree tree language).parent? id = some parent) :
    walk.stop (ofTree tree language) id ≤ walk.stop (ofTree tree language) parent := by
  obtain ⟨k, listed⟩ := List.mem_iff_getElem?.1 (parent?_eq_some_iff.1 up)
  obtain ⟨element, found, listed⟩ := exists_of_getElem?_children listed
  obtain ⟨subtree, upper, place, rfl, holds, -⟩ := holds_of_element? found
  obtain ⟨inside, -, within, bound⟩ := holds_child holds listed
  rw [stop_eq found, stop_eq within.element?_eq]
  exact bound

theorem lt_size_of_parent? (up : (ofTree tree language).parent? id = some parent) :
    id < (ofTree tree language).size := by
  by_contra outside
  rw [parent?_eq_none (Nat.le_of_not_lt outside)] at up
  cases up

/-- An element around another one starts before it and stops behind it. -/
theorem around_of_mem_ancestors (member : id ∈ (ofTree tree language).ancestors other) :
    id < other ∧ walk.stop (ofTree tree language) other ≤ walk.stop (ofTree tree language) id := by
  induction other using Nat.strong_induction_on with
  | _ other ih =>
    cases up : (ofTree tree language).parent? other with
    | none =>
      rw [ancestors_of_root up] at member
      cases member
    | some parent =>
      have less := parent?_lt up
      have bound := stop_le_parent up
      rw [ancestors_of_parent up] at member
      rcases List.mem_cons.1 member with rfl | higher
      · exact ⟨less, bound⟩
      · obtain ⟨before, behind⟩ := ih parent less higher
        exact ⟨by omega, by omega⟩

/-- An element in the range of another one has it among its ancestors: its parent is that element,
or stands in the same range before it. -/
theorem mem_ancestors_of_around (later : id < other)
    (within : other < walk.stop (ofTree tree language) id) :
    id ∈ (ofTree tree language).ancestors other := by
  induction other using Nat.strong_induction_on with
  | _ other ih =>
    cases found : (ofTree tree language).element? id with
    | none => simp [walk.stop, found] at within
    | some element =>
      obtain ⟨subtree, upper, index, rfl, holds, -⟩ := holds_of_element? found
      rw [stop_eq found] at within
      obtain ⟨inside, up, place, stands, above⟩ := holds.inside.subtree later within
      rcases above with ⟨rfl, -⟩ | ⟨above, outer, rfl, lower, less, -⟩
      · rw [ancestors_of_parent (Holds.parent?_eq stands)]
        exact List.mem_cons_self
      · rw [ancestors_of_parent (Holds.parent?_eq stands)]
        refine List.mem_cons_of_mem _ (ih above less lower ?_)
        rw [stop_eq found]
        exact Nat.lt_trans less within

theorem mem_ancestors_iff : id ∈ (ofTree tree language).ancestors other ↔
    id < other ∧ other < walk.stop (ofTree tree language) id := by
  constructor
  · intro member
    obtain ⟨before, behind⟩ := around_of_mem_ancestors member
    have small : other < (ofTree tree language).size := by
      cases up : (ofTree tree language).parent? other with
      | none =>
        rw [ancestors_of_root up] at member
        cases member
      | some parent => exact lt_size_of_parent? up
    have inside := lt_stop small
    exact ⟨before, by omega⟩
  · rintro ⟨later, within⟩
    exact mem_ancestors_of_around later within

end Ancestors

end Document

end TopicLint
