import TopicLint.Proofs.Document.Selection

/-! The nearest node along an axis, and whether there is one. The axis that stays is no exception here: it
leads to the node itself, which is found if it passes. -/

namespace TopicLint

/-- The elements that an axis leads to from a node. From nothing it leads to none. -/
def Document.reached (doc : Document) (axis : Axis) : Node → List Nat
  | .nothing => []
  | .found id _ => doc.walk id axis

namespace Node

variable {doc : Document} {axis : Axis} {filter : String} {accept : Node → Bool} {node : Node}
  {id place : Nat}

theorem mem_matching_iff {ids : List Nat} : id ∈ doc.matching filter ids ↔
    id ∈ ids ∧ (found id 0).matchesName doc filter = true := List.mem_filter

theorem lt_size_of_matchesName (named : (found id place).matchesName doc filter = true) :
    id < doc.size := by
  rw [matchesName, element?] at named
  cases there : doc.element? id with
  | none =>
    rw [there] at named
    cases named
  | some element => exact Document.lt_size_of_element? there

theorem matchesName_anyName : (found id place).matchesName doc anyName = true ↔ id < doc.size := by
  refine ⟨lt_size_of_matchesName, fun small => ?_⟩
  obtain ⟨element, there⟩ := Document.exists_element small
  rw [matchesName, element?, there]
  rfl

/-- What a query finds along an axis matches its name and is accepted. -/
theorem accepted_of_alongWhere (chosen : node.alongWhere doc axis filter accept = found id place) :
    (found id place).matchesName doc filter = true ∧ accept (found id place) = true := by
  cases node with
  | nothing => cases chosen
  | found start here =>
    rw [alongWhere] at chosen
    split at chosen
    next =>
      split at chosen
      next both =>
        cases chosen
        exact Bool.and_eq_true_iff.1 both
      next => cases chosen
    next =>
      obtain ⟨listed, accepted, -⟩ := firstMatch_eq_found_iff.1 chosen
      exact ⟨(mem_matching_iff.1 (List.mem_of_getElem? listed)).2, accepted⟩

/-- From the node that an axis leads to, the axis that stays leads to it again. -/
theorem along_itself_along (tag : String) :
    (node.along doc axis tag).along doc .itself tag = node.along doc axis tag := by
  generalize chosen : node.along doc axis tag = nearest
  cases nearest with
  | nothing => rfl
  | found id place =>
    have named := (accepted_of_alongWhere chosen).1
    simp only [along, alongWhere, if_pos, named, Bool.and_self]

section Placeless

/-! A predicate that does not look at places. -/

variable (placeless : ∀ id place, accept (found id place) = accept (found id 0))

include placeless

theorem id?_firstMatch (place : Nat) (ids : List Nat) : (firstMatch doc filter accept place ids).id? =
    (doc.matching filter ids).find? fun id => accept (found id 0) := by
  induction ids generalizing place with
  | nil => rfl
  | cons id rest ih =>
    have name : (found id place).matchesName doc filter = (found id 0).matchesName doc filter := rfl
    rw [firstMatch, name, placeless, Document.matching, List.filter_cons]
    split
    next =>
      rw [List.find?_cons]
      split
      next accepted => rw [accepted]; rfl
      next refused =>
        rw [eq_false_of_ne_true refused]
        exact ih (place + 1)
    next => exact ih place

/-- The node that a query finds is the first along its axis that matches the name and is accepted. -/
theorem id?_alongWhere : (node.alongWhere doc axis filter accept).id? =
    (doc.matching filter (doc.reached axis node)).find? fun id => accept (found id 0) := by
  cases node with
  | nothing => rfl
  | found id place =>
    rw [alongWhere, Document.reached]
    split
    next stays =>
      have name : (found id place).matchesName doc filter = (found id 0).matchesName doc filter := rfl
      rw [stays, Document.walk, Document.matching, List.filter_singleton, name, placeless]
      cases (found id 0).matchesName doc filter with
      | false => rfl
      | true => cases accepted : accept (found id 0) <;> simp [accepted, id?]
    next => exact id?_firstMatch placeless 0 _

/-- A query finds a node if some element along the axis matches the name and is accepted. -/
theorem exists_alongWhere_iff : (node.alongWhere doc axis filter accept).exists? = true ↔
    ∃ id ∈ doc.matching filter (doc.reached axis node), accept (found id 0) = true := by
  have known (node : Node) : node.exists? = node.id?.isSome := by cases node <;> rfl
  rw [known, id?_alongWhere placeless, List.find?_isSome]

end Placeless

theorem id?_along (tag : String) :
    (node.along doc axis tag).id? = (doc.matching tag (doc.reached axis node)).head? := by
  rw [along, id?_alongWhere fun _ _ => rfl]
  cases doc.matching tag (doc.reached axis node) <;> rfl

end Node

end TopicLint
