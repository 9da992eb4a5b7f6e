import Mathlib.Algebra.GroupWithZero.Nat
import Mathlib.Data.String.Basic
import TopicLint.Proofs.Document.Nearest
import TopicLint.Proofs.Text.Blank
import TopicLint.Rule.Evaluate

/-! The text of a document is that of its tree. Nothing is lost, doubled or moved where notes split a run
of text or elements stand in it; and the text of a subtree is made up of the texts that its elements own,
so an element is empty if all of these are blank. -/

namespace TopicLint

namespace Forest

/-- All text in a forest, at every depth, in order. -/
def characters : Forest → List Char
  | nil => []
  | text run rest => run.toList ++ characters rest
  | note rest => characters rest
  | element _ inner rest => characters inner ++ characters rest

/-- The text at the top of a forest, in order. -/
def ownCharacters : Forest → List Char
  | nil => []
  | text run rest => run.toList ++ ownCharacters rest
  | note rest => ownCharacters rest
  | element _ _ rest => ownCharacters rest

/-- The text of a forest, with something given for each element at its top. -/
def reading (given : Nat → List Char) (next : Nat) : Forest → List Char
  | nil => []
  | text run rest => run.toList ++ reading given next rest
  | note rest => reading given next rest
  | element _ inner rest => given next ++ reading given (next + 1 + inner.count) rest

theorem reading_nothing (forest : Forest) (next : Nat) :
    forest.reading (fun _ => []) next = forest.ownCharacters := by
  induction forest generalizing next with
  | nil => rfl
  | text run rest ih => exact congrArg (run.toList ++ ·) (ih next)
  | note rest ih => exact ih next
  | element tag inner rest inside after => exact after _

/-- The text of a forest is made up of the text at its top and those that its elements own. -/
theorem characters_perm (forest : Forest) : forest.characters.Perm
    (forest.ownCharacters ++ forest.subtrees.flatMap fun tree => tree.inner.ownCharacters) := by
  induction forest with
  | nil => exact .refl _
  | text run rest ih =>
    rw [characters, ownCharacters, List.append_assoc]
    exact ih.append_left run.toList
  | note rest ih => exact ih
  | element tag inner rest inside after =>
    rw [characters, ownCharacters, subtrees, List.flatMap_cons, List.flatMap_append]
    refine (inside.append after).trans ?_
    rw [← List.append_assoc inner.ownCharacters]
    exact List.perm_append_comm_assoc ..

end Forest

/-- The text of a piece, with something given for each element. -/
def Content.characters (given : Nat → List Char) : Content → List Char
  | text run => run.toList
  | element id => given id

namespace Inside

variable {given : Nat → List Char}

/-- All text read inside an element, with something given for each element there. -/
def characters (given : Nat → List Char) (inside : Inside) : List Char :=
  inside.content.toList.flatMap (Content.characters given)

theorem characters_addText (run : String) (inside : Inside) :
    (inside.addText run).characters given = inside.characters given ++ run.toList := by
  unfold addText characters
  split
  next previous last =>
    obtain ⟨front, same⟩ := Array.back?_eq_some_iff.1 last
    simp [same, Content.characters]
  next => simp [Content.characters]

theorem characters_addElement (id : Nat) (inside : Inside) :
    (inside.addElement id).characters given = inside.characters given ++ given id := by
  simp [addElement, characters, Content.characters]

theorem characters_inside (forest : Forest) (next : Nat) (before : Inside) :
    (forest.inside next before).characters given =
      before.characters given ++ forest.reading given next := by
  induction forest generalizing next before with
  | nil => exact (List.append_nil _).symm
  | text run rest ih =>
    refine (ih next _).trans ?_
    rw [characters_addText, List.append_assoc]
    rfl
  | note rest ih => exact ih next before
  | element tag inner rest _ after =>
    refine (after _ _).trans ?_
    rw [characters_addElement, List.append_assoc]
    rfl

/-- The text of the contents of an element is that of its tree. -/
theorem characters_element (tree : Tree) (id index : Nat) :
    (tree.element id index).content.flatMap (Content.characters given) =
      tree.inner.reading given (id + 1) := characters_inside tree.inner (id + 1) .empty

end Inside

namespace Text

theorem utf8ByteSize_eq_sum (s : String) : s.utf8ByteSize = (s.toList.map Char.utf8Size).sum := by
  have bytes (cs : List Char) : String.utf8Len cs = (cs.map Char.utf8Size).sum := by
    induction cs with
    | nil => rfl
    | cons c cs ih => rw [String.utf8Len_cons, ih, List.map_cons, List.sum_cons, Nat.add_comm]
  rw [← bytes, ← String.utf8ByteSize_ofList, String.ofList_toList]

theorem utf8ByteSize_join (texts : List String) :
    (String.join texts).utf8ByteSize = (texts.map String.utf8ByteSize).sum := by
  induction texts with
  | nil => rfl
  | cons s rest ih => rw [String.join_cons, String.utf8ByteSize_append, ih, List.map_cons, List.sum_cons]

variable {s t : String}

theorem length_eq_of_perm (permuted : s.toList.Perm t.toList) : s.length = t.length := by
  rw [← String.length_toList, ← String.length_toList, permuted.length_eq]

theorem utf8ByteSize_eq_of_perm (permuted : s.toList.Perm t.toList) :
    s.utf8ByteSize = t.utf8ByteSize := by
  rw [utf8ByteSize_eq_sum, utf8ByteSize_eq_sum, (permuted.map _).sum_nat]

end Text

namespace Document

variable {tree subtree : Tree} {language : String} {id place : Nat} {up : Option Nat}

/-- What the value of an element is made of, besides its own text. -/
def below (doc : Document) (id child : Nat) : List Char :=
  if id < child ∧ child < doc.size then doc.value child else []

theorem value_of_holds (holds : Holds (ofTree tree language) tree subtree up id place) :
    (ofTree tree language).value id =
      subtree.inner.reading ((ofTree tree language).below id) (id + 1) := by
  rw [value, holds.element?_eq, ← Inside.characters_element subtree id place]
  refine List.flatMap_congr fun piece _ => ?_
  cases piece <;> rfl

theorem lt_size_of_holds (holds : Holds (ofTree tree language) tree subtree up id place) :
    id < (ofTree tree language).size := lt_size_of_element? holds.element?_eq

theorem reading_below {forest : Forest} {parent : Option Nat} {next index : Nat}
    (laid : Laid tree.subtrees (ofTree tree language).elements.toList
      (ofTree tree language).parents.toList parent next index forest) (later : id < next) :
    forest.reading ((ofTree tree language).below id) next = forest.characters := by
  induction forest generalizing parent next index id with
  | nil => rfl
  | text run rest ih =>
    exact congrArg (run.toList ++ ·) (ih ⟨laid.trees, laid.elements, laid.parents⟩ later)
  | note rest ih => exact ih ⟨laid.trees, laid.elements, laid.parents⟩ later
  | element tag inner rest inside after =>
    have here : (ofTree tree language).below id next = inner.characters := by
      rw [below, if_pos ⟨later, lt_size_of_holds laid.stands⟩, value_of_holds laid.stands]
      exact inside laid.stands.inside (Nat.lt_succ_self next)
    rw [Forest.reading, here, after laid.after (by omega), Forest.characters]

/-- The value of an element is all text in its subtree, in order. -/
theorem value_eq_characters (holds : Holds (ofTree tree language) tree subtree up id place) :
    (ofTree tree language).value id = subtree.inner.characters :=
  (value_of_holds holds).trans (reading_below holds.inside (Nat.lt_succ_self id))

/-- The text of an element is what stands directly inside it, in order. -/
theorem toList_text (holds : Holds (ofTree tree language) tree subtree up id place) (rank : Nat) :
    ((Node.found id rank).text (ofTree tree language)).toList = subtree.inner.ownCharacters := by
  rw [Node.text, Node.element?, holds.element?_eq, String.toList_join, List.flatMap_map,
    ← Forest.reading_nothing _ (id + 1), ← Inside.characters_element subtree id place]
  refine List.flatMap_congr fun piece _ => ?_
  cases piece <;> rfl

/-- The texts of the elements of a subtree, each without those of the elements inside it. -/
def texts (doc : Document) (id : Nat) : List String :=
  (List.range' id (walk.stop doc id - id)).map fun other => (Node.found other 0).text doc

theorem toList_texts {forest : Forest} {parent : Option Nat} {next index : Nat}
    (laid : Laid tree.subtrees (ofTree tree language).elements.toList
      (ofTree tree language).parents.toList parent next index forest) :
    ((List.range' next forest.count).flatMap fun other =>
        ((Node.found other 0).text (ofTree tree language)).toList) =
      forest.subtrees.flatMap fun tree => tree.inner.ownCharacters := by
  induction forest generalizing parent next index with
  | nil => rfl
  | text run rest ih => exact ih ⟨laid.trees, laid.elements, laid.parents⟩
  | note rest ih => exact ih ⟨laid.trees, laid.elements, laid.parents⟩
  | element tag inner rest inside after =>
    rw [Forest.range'_element, List.flatMap_cons, List.flatMap_append, inside laid.stands.inside,
      after laid.after, toList_text laid.stands, Forest.subtrees, List.flatMap_cons,
      List.flatMap_append]

/-- The characters of the value of an element are those of the texts in its subtree. -/
theorem value_perm_texts (holds : Holds (ofTree tree language) tree subtree up id place) :
    ((ofTree tree language).value id).Perm (String.join ((ofTree tree language).texts id)).toList := by
  have numbers : List.range' id (walk.stop (ofTree tree language) id - id) =
      id :: List.range' (id + 1) subtree.inner.count := by
    rw [stop_eq holds.element?_eq, Forest.stop_element, ← List.range'_succ]
    congr 1
    omega
  rw [value_eq_characters holds, String.toList_join, texts, List.flatMap_map, numbers,
    List.flatMap_cons, toList_text holds]
  exact toList_texts holds.inside ▸ subtree.inner.characters_perm

/-- What the text of a document has to do with that of its tree. -/
structure KeepsText (doc : Document) (tree : Tree) : Prop where
  /-- The value of an element is all text in its subtree, in order. -/
  value_eq : ∀ id subtree place, tree.subtrees[id]? = some subtree →
    (Node.found id place).value doc = String.ofList subtree.inner.characters
  /-- The text of an element is all text directly inside it, in order. -/
  text_eq : ∀ id subtree place, tree.subtrees[id]? = some subtree →
    (Node.found id place).text doc = String.ofList subtree.inner.ownCharacters
  value_perm : ∀ id < doc.size, ∀ place,
    ((Node.found id place).value doc).toList.Perm (String.join (doc.texts id)).toList
  length_eq : ∀ id < doc.size, ∀ place,
    ((Node.found id place).value doc).length = ((doc.texts id).map String.length).sum
  bytes_eq : ∀ id < doc.size, ∀ place,
    ((Node.found id place).value doc).utf8ByteSize = ((doc.texts id).map String.utf8ByteSize).sum
  /-- The node that a check finds is empty if all elements of its subtree own blanks only. -/
  empty_iff : ∀ axis node tag id place, node.along doc axis tag = .found id place →
    ((Rule.Check.empty tag).holds doc axis node = true ↔
      ∀ text ∈ doc.texts id, ∀ c ∈ text.toList, Text.isBlank c = true)

theorem holds_of_subtree (found : tree.subtrees[id]? = some subtree) :
    ∃ up place, Holds (ofTree tree language) tree subtree up id place := by
  have small : id < (ofTree tree language).size := by
    rw [size_ofTree]
    exact (List.getElem?_eq_some_iff.1 found).1
  obtain ⟨other, up, place, holds, -⟩ := exists_holds small
  obtain rfl := Option.some.inj (holds.tree_eq.symm.trans found)
  exact ⟨up, place, holds⟩

theorem toList_value_perm (small : id < (ofTree tree language).size) (rank : Nat) :
    ((Node.found id rank).value (ofTree tree language)).toList.Perm
      (String.join ((ofTree tree language).texts id)).toList := by
  obtain ⟨subtree, up, place, holds, -⟩ := exists_holds small
  rw [Node.value, String.toList_ofList]
  exact value_perm_texts holds

/-- No text of a tree is lost, doubled or moved in its document. -/
theorem keepsText_ofTree (tree : Tree) (language : String) :
    (ofTree tree language).KeepsText tree where
  value_eq id subtree place found := by
    obtain ⟨up, index, holds⟩ := holds_of_subtree found
    rw [Node.value, value_eq_characters holds]
  text_eq id subtree place found := by
    obtain ⟨up, index, holds⟩ := holds_of_subtree found
    rw [← toList_text holds, String.ofList_toList]
  value_perm _ small := toList_value_perm small
  length_eq id small place := by
    rw [Text.length_eq_of_perm (toList_value_perm small place), String.length_join]
  bytes_eq id small place := by
    rw [Text.utf8ByteSize_eq_of_perm (toList_value_perm small place), Text.utf8ByteSize_join]
  empty_iff axis node tag id place chosen := by
    have small := Node.lt_size_of_matchesName (Node.accepted_of_alongWhere chosen).1
    have same (c : Char) := (toList_value_perm small place).mem_iff (a := c)
    simp only [Rule.Check.holds, Rule.Check.holds.nearest, chosen, Node.exists?, Bool.true_and,
      Text.isEmpty_trim_iff, same, String.toList_join, List.mem_flatMap]
    constructor
    · exact fun blank text listed c member => blank c ⟨text, listed, member⟩
    · rintro blank c ⟨text, listed, member⟩
      exact blank text listed c member

end Document

end TopicLint
