import Mathlib.Data.List.Nodup
import TopicLint.Proofs.Document.Axes

/-! What a query finds. Of the elements along an axis whose name matches, a query finds the first
one that is accepted, and its place is its rank among them, whatever was accepted or refused
before. So the elements can be found one after the other by refusing those found so far. -/

namespace TopicLint

namespace Document

def matching (doc : Document) (filter : String) (ids : List Nat) : List Nat :=
  ids.filter fun id => (Node.found id 0).matchesName doc filter

end Document

namespace Node

/-- Accepts the nodes of elements that none of the given nodes stands for. -/
def isNew (seen : List Node) (candidate : Node) : Bool :=
  ! (seen.map Node.id?).contains candidate.id?

/-- The results of the first calls of a query, each call accepting what no call before it found. -/
def results (query : (Node → Bool) → Node) : Nat → List Node
  | 0 => []
  | calls + 1 => results query calls ++ [query (isNew (results query calls))]

/-- A query finds the first accepted one of listed elements, with its place in the list. -/
structure Selects (query : (Node → Bool) → Node) (listed : List Nat) : Prop where
  eq_found_iff : ∀ accept id place, query accept = found id place ↔
    listed[place]? = some id ∧ accept (found id place) = true ∧
      ∀ earlier < place, ∀ other, listed[earlier]? = some other →
        accept (found other earlier) = false
  eq_nothing_iff : ∀ accept, query accept = nothing ↔
    ∀ place id, listed[place]? = some id → accept (found id place) = false
  nodup : listed.Nodup

/-- A query finds listed elements one after the other, each always with its place in the list: if
each call refuses what was found before, every element comes once, in order, and then nothing. -/
structure Enumerates (query : (Node → Bool) → Node) (listed : List Nat) : Prop
    extends Selects query listed where
  place_eq : ∀ one two id first second, query one = found id first → query two = found id second →
    first = second
  results_eq : ∀ calls, results query calls =
    (List.range calls).map fun call => listed[call]?.elim nothing fun id => found id call

section Search

variable {doc : Document} {filter : String} {accept : Node → Bool} {ids : List Nat}

theorem firstMatch_eq_find? (place : Nat) : firstMatch doc filter accept place ids =
    (((doc.matching filter ids).zipIdx place).find? fun entry => accept (found entry.1 entry.2)).elim
      nothing fun entry => found entry.1 entry.2 := by
  induction ids generalizing place with
  | nil => rfl
  | cons id rest ih =>
    by_cases named : (found id 0).matchesName doc filter
    · have listed : doc.matching filter (id :: rest) = id :: doc.matching filter rest :=
        List.filter_cons_of_pos named
      have here : (found id place).matchesName doc filter = true := named
      rw [listed, List.zipIdx_cons, List.find?_cons, firstMatch, if_pos here]
      cases chosen : accept (found id place) with
      | true => rfl
      | false => exact ih (place + 1)
    · have listed : doc.matching filter (id :: rest) = doc.matching filter rest :=
        List.filter_cons_of_neg named
      rw [listed, ← ih, firstMatch]
      exact if_neg named

theorem firstMatch_eq_found_iff {id place : Nat} : firstMatch doc filter accept 0 ids = found id place ↔
    (doc.matching filter ids)[place]? = some id ∧ accept (found id place) = true ∧
      ∀ earlier < place, ∀ other, (doc.matching filter ids)[earlier]? = some other →
        accept (found other earlier) = false := by
  have chosen : firstMatch doc filter accept 0 ids = found id place ↔
      ((doc.matching filter ids).zipIdx.find? fun entry => accept (found entry.1 entry.2)) =
        some (id, place) := by
    rw [firstMatch_eq_find?]
    cases (doc.matching filter ids).zipIdx.find? fun entry => accept (found entry.1 entry.2) with
    | none => simp
    | some entry => simp [Prod.ext_iff]
  rw [chosen, List.find?_eq_some_iff_getElem]
  constructor
  · rintro ⟨accepted, rank, small, same, refused⟩
    rw [List.getElem_zipIdx, Nat.zero_add] at same
    cases same
    rw [List.length_zipIdx] at small
    refine ⟨List.getElem?_eq_getElem small, accepted, fun earlier less other listed => ?_⟩
    obtain ⟨bound, rfl⟩ := List.getElem?_eq_some_iff.1 listed
    simpa using refused earlier less
  · rintro ⟨listed, accepted, refused⟩
    obtain ⟨bound, rfl⟩ := List.getElem?_eq_some_iff.1 listed
    refine ⟨accepted, place, by simpa using bound, by simp, fun earlier less => ?_⟩
    simpa using refused earlier less _ (List.getElem?_eq_getElem (Nat.lt_trans less bound))

theorem firstMatch_eq_nothing_iff : firstMatch doc filter accept 0 ids = nothing ↔
    ∀ place id, (doc.matching filter ids)[place]? = some id → accept (found id place) = false := by
  have missed : firstMatch doc filter accept 0 ids = nothing ↔
      ((doc.matching filter ids).zipIdx.find? fun entry => accept (found entry.1 entry.2)) = none := by
    rw [firstMatch_eq_find?]
    cases (doc.matching filter ids).zipIdx.find? fun entry => accept (found entry.1 entry.2) with
    | none => simp
    | some entry => simp
  rw [missed, List.find?_eq_none]
  constructor
  · intro refused place id listed
    simpa using refused (id, place) (List.mk_mem_zipIdx_iff_getElem?.2 listed)
  · rintro refused ⟨id, place⟩ listed
    simpa using refused place id (List.mk_mem_zipIdx_iff_getElem?.1 listed)

end Search

namespace Selects

variable {query : (Node → Bool) → Node} {listed : List Nat}

theorem rank_eq (selects : Selects query listed) {id first second : Nat}
    (here : listed[first]? = some id) (there : listed[second]? = some id) : first = second :=
  (List.getElem?_inj (List.getElem?_eq_some_iff.1 here).1 selects.nodup).1 (here.trans there.symm)

theorem results_list (selects : Selects query listed) (calls : Nat) : results query calls =
    (List.range calls).map fun call => listed[call]?.elim nothing fun id => found id call := by
  induction calls with
  | zero => rfl
  | succ calls ih =>
    have numbers : (results query calls).map Node.id? = (List.range calls).map (listed[·]?) := by
      rw [ih, List.map_map]
      apply List.map_congr_left
      intro call _
      show (listed[call]?.elim nothing fun id => found id call).id? = listed[call]?
      cases listed[call]? with
      | none => rfl
      | some id => rfl
    have isNew_iff (id place : Nat) : isNew (results query calls) (found id place) = false ↔
        ∃ call < calls, listed[call]? = some id := by
      simp [isNew, numbers, Node.id?]
    rw [results, List.range_succ, List.map_append, ← ih, List.map_singleton]
    congr 2
    cases here : listed[calls]? with
    | none =>
      refine (selects.eq_nothing_iff _).2 fun place id within => (isNew_iff id place).2 ?_
      have bound := (List.getElem?_eq_some_iff.1 within).1
      exact ⟨place, Nat.lt_of_lt_of_le bound (List.getElem?_eq_none_iff.1 here), within⟩
    | some id =>
      refine (selects.eq_found_iff _ _ _).2 ⟨here, ?_, fun earlier less other within =>
        (isNew_iff other earlier).2 ⟨earlier, less, within⟩⟩
      -- The list has no element twice, so the one at this place was not found before.
      by_contra seen
      obtain ⟨call, less, within⟩ := (isNew_iff id calls).1 (eq_false_of_ne_true seen)
      exact Nat.ne_of_gt less (selects.rank_eq here within)

theorem enumerates (selects : Selects query listed) : Enumerates query listed where
  toSelects := selects
  place_eq _ _ _ _ _ one two := selects.rank_eq ((selects.eq_found_iff _ _ _).1 one).1
    ((selects.eq_found_iff _ _ _).1 two).1
  results_eq := selects.results_list

end Selects

end Node

namespace Document

theorem nodup_children {tree : Tree} {language : String} (id : Nat) :
    ((ofTree tree language).children id).Nodup := by
  cases found : (ofTree tree language).element? id with
  | none =>
    unfold children
    rw [found]
    exact List.nodup_nil
  | some element =>
    obtain ⟨subtree, up, place, rfl, -⟩ := holds_of_element? found
    rw [children_eq _ found, Forest.children_element]
    exact (Forest.pairwise_tops _ _).imp Nat.ne_of_lt

theorem nodup_siblings {tree : Tree} {language : String} (id : Nat) :
    ((ofTree tree language).siblings id).Nodup := by
  cases up : (ofTree tree language).parent? id with
  | none =>
    rw [siblings_of_root up]
    exact List.nodup_singleton 0
  | some parent =>
    rw [siblings_of_parent up]
    exact nodup_children parent

theorem nodup_ancestorOrSelf {tree : Tree} {language : String} (id : Nat) :
    (id :: (ofTree tree language).ancestors id).Nodup := by
  induction id using Nat.strong_induction_on with
  | _ id ih =>
    refine List.nodup_cons.2 ⟨fun member => Nat.lt_irrefl id (mem_ancestors_iff.1 member).1, ?_⟩
    cases up : (ofTree tree language).parent? id with
    | none =>
      rw [ancestors_of_root up]
      exact List.nodup_nil
    | some parent =>
      rw [ancestors_of_parent up]
      exact ih parent (parent?_lt up)

theorem nodup_toList (found : Option Nat) : found.toList.Nodup := by
  cases found with
  | none => exact List.nodup_nil
  | some id => exact List.nodup_singleton id

theorem nodup_walk {tree : Tree} {language : String} (id : Nat) (axis : Axis) :
    ((ofTree tree language).walk id axis).Nodup := by
  cases axis with
  | child => exact nodup_children id
  | parent => exact nodup_toList _
  | ancestorOrSelf => exact nodup_ancestorOrSelf id
  | ancestor => exact (nodup_ancestorOrSelf id).of_cons
  | descendantOrSelf => exact List.nodup_range'
  | descendant => exact List.nodup_range'
  | precedingSibling => exact List.nodup_reverse.2 ((nodup_siblings id).sublist (List.take_sublist _ _))
  | followingSibling => exact (nodup_siblings id).sublist (List.drop_sublist _ _)
  | previousSibling => exact nodup_toList _
  | nextSibling => exact nodup_toList _
  | itself => exact List.nodup_singleton id

theorem selects_alongWhere {tree : Tree} {language : String} {axis : Axis} (moves : axis ≠ .itself)
    (id place : Nat) (filter : String) : Node.Selects
      (fun accept => (Node.found id place).alongWhere (ofTree tree language) axis filter accept)
      ((ofTree tree language).matching filter ((ofTree tree language).walk id axis)) := by
  have search (accept : Node → Bool) :
      (Node.found id place).alongWhere (ofTree tree language) axis filter accept =
        Node.firstMatch (ofTree tree language) filter accept 0
          ((ofTree tree language).walk id axis) := if_neg moves
  constructor
  · intro accept other rank
    rw [search]
    exact Node.firstMatch_eq_found_iff
  · intro accept
    rw [search]
    exact Node.firstMatch_eq_nothing_iff
  · exact (nodup_walk id axis).filter _

/-- Along an axis that moves, a query enumerates the elements whose name matches, in walking order.
The axis that stays accepts or refuses the node itself, with the place that it has. -/
theorem enumerates_alongWhere (tree : Tree) (language : String) (id place : Nat) (filter : String) :
    (∀ axis, axis ≠ .itself → Node.Enumerates
      (fun accept => (Node.found id place).alongWhere (ofTree tree language) axis filter accept)
      ((ofTree tree language).matching filter ((ofTree tree language).walk id axis))) ∧
    (∀ accept, (Node.found id place).alongWhere (ofTree tree language) .itself filter accept =
      if (Node.found id place).matchesName (ofTree tree language) filter &&
        accept (.found id place) then .found id place else .nothing) := by
  constructor
  · intro axis moves
    exact (selects_alongWhere moves id place filter).enumerates
  · intro accept
    simp only [Node.alongWhere, if_pos]

end Document

end TopicLint
