import TopicLint.Proofs.Document.Nearest
import TopicLint.Proofs.Document.Safety
import TopicLint.Proofs.Text.Blank

/-! What elements inherit. An element has its own conditions and those of its parent, and its own language
or else that of its parent; so other attributes on an element make no difference to languages outside its
subtree, nor inside below another element that declares a language. -/

namespace TopicLint

/-- Whether a character separates conditions. -/
def Node.endsCondition (c : Char) : Bool := c = ',' || c = ';' || Text.isBlank c

namespace Document

section Chain

variable {tree : Tree} {language : String} {id place parent : Nat}

theorem mem_ancestors_trans {other around : Nat} (higher : around ∈ (ofTree tree language).ancestors id)
    (above : id ∈ (ofTree tree language).ancestors other) :
    around ∈ (ofTree tree language).ancestors other := by
  obtain ⟨before, behind⟩ := around_of_mem_ancestors higher
  obtain ⟨later, within⟩ := mem_ancestors_iff.1 above
  exact mem_ancestors_iff.2 ⟨by omega, by omega⟩

theorem matching_ancestorOrSelf (small : id < (ofTree tree language).size) :
    (ofTree tree language).matching anyName (id :: (ofTree tree language).ancestors id) =
      id :: (ofTree tree language).ancestors id := by
  refine List.filter_eq_self.2 fun around member => Node.matchesName_anyName.2 ?_
  rcases List.mem_cons.1 member with rfl | above
  · exact small
  · exact Nat.lt_trans (mem_ancestors_iff.1 above).1 small

theorem hasCondition_iff (small : id < (ofTree tree language).size) (name : String) :
    (Node.found id place).hasCondition (ofTree tree language) name = true ↔
      ∃ around ∈ id :: (ofTree tree language).ancestors id,
        name ∈ (Node.found around 0).ownConditions (ofTree tree language) := by
  rw [Node.hasCondition, Node.exists_alongWhere_iff fun _ _ => rfl, reached, walk,
    matching_ancestorOrSelf small]
  simp only [List.contains_iff_mem]

/-- Whether an element declares a language. -/
def declares (doc : Document) (id : Nat) : Bool := ! ((Node.found id 0).attr doc "xml:lang").isEmpty

theorem languageAt_eq (small : id < (ofTree tree language).size) :
    (Node.found id place).languageAt (ofTree tree language) =
      ((id :: (ofTree tree language).ancestors id).find? (ofTree tree language).declares).elim language
        fun carrier => (Node.found carrier 0).attr (ofTree tree language) "xml:lang" := by
  let speaks : Node → Bool := fun around => ! (around.attr (ofTree tree language) "xml:lang").isEmpty
  have nearest :
      (Node.alongWhere (ofTree tree language) .ancestorOrSelf anyName speaks (.found id place)).id? =
        (id :: (ofTree tree language).ancestors id).find? (ofTree tree language).declares := by
    rw [Node.id?_alongWhere fun _ _ => rfl, reached, walk, matching_ancestorOrSelf small]
    rfl
  rw [Node.languageAt, ← nearest]
  cases Node.alongWhere (ofTree tree language) .ancestorOrSelf anyName speaks (.found id place) with
  | nothing => rfl
  | found carrier rank => rfl

end Chain

/-- What the elements of a document have from those around them. -/
structure Inherits (doc : Document) : Prop where
  condition_iff : ∀ id < doc.size, ∀ place name,
    (Node.found id place).hasCondition doc name = true ↔
      Text.IsPiece Node.endsCondition name.toList
          ((Node.found id place).attr doc "MadCap:conditions").toList ∨
        ∃ parent, doc.parent? id = some parent ∧ (Node.found parent 0).hasCondition doc name = true
  condition_descendant : ∀ id < doc.size, ∀ other ∈ doc.walk id .descendant, ∀ place rank name,
    (Node.found id place).hasCondition doc name = true →
      (Node.found other rank).hasCondition doc name = true
  language_own : ∀ id < doc.size, ∀ place tag, (Node.found id place).attr doc "xml:lang" ≠ "" →
    (Node.found id place).hasLanguage doc tag =
      Text.startsWith (Text.lowercase ((Node.found id place).attr doc "xml:lang")) (Text.lowercase tag)
  language_parent : ∀ id < doc.size, ∀ place tag parent,
    (Node.found id place).attr doc "xml:lang" = "" → doc.parent? id = some parent →
      (Node.found id place).hasLanguage doc tag = (Node.found parent 0).hasLanguage doc tag
  language_root : ∀ place tag, (Node.found 0 place).attr doc "xml:lang" = "" →
    (Node.found 0 place).hasLanguage doc tag =
      Text.startsWith (Text.lowercase doc.defaultLanguage) (Text.lowercase tag)

section Steps

variable {tree : Tree} {language : String} {id place parent : Nat}

theorem languageAt_own (small : id < (ofTree tree language).size)
    (own : (Node.found id place).attr (ofTree tree language) "xml:lang" ≠ "") :
    (Node.found id place).languageAt (ofTree tree language) =
      (Node.found id place).attr (ofTree tree language) "xml:lang" := by
  have here : (ofTree tree language).declares id = true := by
    rw [declares, Bool.not_eq_true', ← Bool.not_eq_true, String.isEmpty_iff]
    exact own
  rw [languageAt_eq small, List.find?_cons, here]
  rfl

theorem declares_eq_false (bare : (Node.found id place).attr (ofTree tree language) "xml:lang" = "") :
    (ofTree tree language).declares id = false := by
  rw [declares, Bool.not_eq_false', String.isEmpty_iff]
  exact bare

theorem languageAt_parent (small : id < (ofTree tree language).size)
    (bare : (Node.found id place).attr (ofTree tree language) "xml:lang" = "")
    (up : (ofTree tree language).parent? id = some parent) :
    (Node.found id place).languageAt (ofTree tree language) =
      (Node.found parent 0).languageAt (ofTree tree language) := by
  rw [languageAt_eq small, languageAt_eq (Nat.lt_trans (parent?_lt up) small), List.find?_cons,
    declares_eq_false bare, ancestors_of_parent up]

theorem languageAt_root (small : id < (ofTree tree language).size)
    (bare : (Node.found id place).attr (ofTree tree language) "xml:lang" = "")
    (top : (ofTree tree language).parent? id = none) :
    (Node.found id place).languageAt (ofTree tree language) = language := by
  rw [languageAt_eq small, List.find?_cons, declares_eq_false bare, ancestors_of_root top]
  rfl

theorem hasLanguage_eq (tag : String) : (Node.found id place).hasLanguage (ofTree tree language) tag =
    Text.startsWith (Text.lowercase ((Node.found id place).languageAt (ofTree tree language)))
      (Text.lowercase tag) := Bool.true_and _

theorem inherits (tree : Tree) (language : String) : (ofTree tree language).Inherits where
  condition_iff id small place name := by
    rw [hasCondition_iff small, List.exists_mem_cons_iff, Node.ownConditions, Text.mem_split_iff]
    refine or_congr Iff.rfl ?_
    cases up : (ofTree tree language).parent? id with
    | none => simp [ancestors_of_root up]
    | some parent =>
      have less := Nat.lt_trans (parent?_lt up) small
      rw [ancestors_of_parent up, ← @hasCondition_iff _ _ _ 0 less]
      simp
  condition_descendant id small other below place rank name carried := by
    have inside := lt_size_of_mem_walk .descendant small below
    obtain ⟨around, member, named⟩ := (hasCondition_iff small name).1 carried
    refine (hasCondition_iff inside name).2 ⟨around, List.mem_cons_of_mem _ ?_, named⟩
    have above := mem_ancestors_iff.2 (mem_descendant_iff.1 below)
    rcases List.mem_cons.1 member with rfl | higher
    · exact above
    · exact mem_ancestors_trans higher above
  language_own id small place tag own := by rw [hasLanguage_eq, languageAt_own small own]
  language_parent id small place tag parent bare up := by
    rw [hasLanguage_eq, hasLanguage_eq, languageAt_parent small bare up]
  language_root place tag bare := by
    rw [hasLanguage_eq, languageAt_root (sound_ofTree tree language).size_pos bare parent?_root]
    rfl

end Steps

end Document

section Attributes

variable (attributes : List (Name × String))

/-- Gives the element with a number other attributes. The elements are numbered from zero. -/
def Forest.putAttributes : Nat → Forest → Forest
  | _, .nil => .nil
  | id, .text run rest => .text run (putAttributes id rest)
  | id, .note rest => .note (putAttributes id rest)
  | 0, .element tag inner rest => .element { tag with attributes } inner rest
  | id + 1, .element tag inner rest =>
      if id < inner.count then .element tag (putAttributes id inner) rest
      else .element tag inner (putAttributes (id - inner.count) rest)

/-- Gives the element with a number other attributes. -/
def Tree.putAttributes : Nat → Tree → Tree
  | 0, tree => { tree with tag := { tree.tag with attributes } }
  | id + 1, tree => { tree with inner := tree.inner.putAttributes attributes id }

namespace Forest

variable {attributes}

theorem count_putAttributes (forest : Forest) (id : Nat) :
    (forest.putAttributes attributes id).count = forest.count := by
  fun_induction putAttributes attributes id forest with
  | case1 => rfl
  | case2 id run rest ih => exact ih
  | case3 id rest ih => exact ih
  | case4 tag inner rest => rfl
  | case5 id tag inner rest less ih => simp only [count, ih]
  | case6 id tag inner rest more ih => simp only [count, ih]

theorem inside_putAttributes (forest : Forest) (id next : Nat) (before : Inside) :
    (forest.putAttributes attributes id).inside next before = forest.inside next before := by
  fun_induction putAttributes attributes id forest generalizing next before with
  | case1 => rfl
  | case2 id run rest ih => exact ih next _
  | case3 id rest ih => exact ih next before
  | case4 tag inner rest => rfl
  | case5 id tag inner rest less ih => simp only [inside, count_putAttributes]
  | case6 id tag inner rest more ih => exact ih _ _

theorem parents_putAttributes (forest : Forest) (id : Nat) (parent : Option Nat) (next : Nat) :
    (forest.putAttributes attributes id).parents parent next = forest.parents parent next := by
  fun_induction putAttributes attributes id forest generalizing parent next with
  | case1 => rfl
  | case2 id run rest ih => exact ih parent next
  | case3 id rest ih => exact ih parent next
  | case4 tag inner rest => rfl
  | case5 id tag inner rest less ih => simp only [parents, count_putAttributes, ih]
  | case6 id tag inner rest more ih => simp only [parents, ih]

/-- All elements but the one with the number stay the same. -/
theorem elements_putAttributes (forest : Forest) (id next index : Nat) {other : Nat} (apart : other ≠ id) :
    ((forest.putAttributes attributes id).elements next index)[other]? =
      (forest.elements next index)[other]? := by
  fun_induction putAttributes attributes id forest generalizing next index other with
  | case1 => rfl
  | case2 id run rest ih => exact ih next index apart
  | case3 id rest ih => exact ih next index apart
  | case4 tag inner rest =>
    obtain ⟨other, rfl⟩ := Nat.exists_eq_succ_of_ne_zero apart
    rfl
  | case5 id tag inner rest less ih =>
    cases other with
    | zero => simp [elements, Tree.element, inside_putAttributes, count_putAttributes]
    | succ other =>
      have same := ih (next + 1) 0 (show other ≠ id by omega)
      simp only [elements, List.getElem?_cons_succ, List.getElem?_append, length_elements,
        count_putAttributes, same]
  | case6 id tag inner rest more ih =>
    cases other with
    | zero => rfl
    | succ other =>
      simp only [elements, List.getElem?_cons_succ, List.getElem?_append, length_elements]
      split
      next => rfl
      next behind => exact ih _ _ (by omega)

/-- The element with the number has the attributes that are put there. -/
theorem attributes_putAttributes (forest : Forest) (id next index : Nat) (small : id < forest.count) :
    (((forest.putAttributes attributes id).elements next index)[id]?).map (·.attributes) =
      some (attributes.map fun (name, value) => (name.expanded, value)) := by
  fun_induction putAttributes attributes id forest generalizing next index with
  | case1 => cases small
  | case2 id run rest ih => exact ih next index small
  | case3 id rest ih => exact ih next index small
  | case4 tag inner rest => rfl
  | case5 id tag inner rest less ih =>
    have here : id < ((inner.putAttributes attributes id).elements (next + 1) 0).length := by
      rwa [length_elements, count_putAttributes]
    rw [elements, List.getElem?_cons_succ, List.getElem?_append_left here]
    exact ih _ _ less
  | case6 id tag inner rest more ih =>
    rw [count] at small
    rw [elements, List.getElem?_cons_succ, List.getElem?_append_right, length_elements]
    · exact ih _ _ (by omega)
    · rw [length_elements]
      omega

end Forest

/-- The root of a tree with other attributes somewhere. -/
theorem rootOnly_putAttributes {tree : Tree} {id : Nat} (small : id < tree.subtrees.length) :
    Document.rootOnly (tree.putAttributes attributes id) =
      (Document.rootOnly tree).putAttributes attributes id := by
  cases id with
  | zero => rfl
  | succ id =>
    have inside : id < tree.inner.count := by
      rw [← Document.count_root, Forest.count, Forest.count] at small
      omega
    exact (if_pos inside).symm

end Attributes

namespace Document

/-- The elements that the language of another one has no bearing on: those outside its subtree, and those
in the subtree of an element below it that declares a language itself. -/
def Untouched (doc : Document) (id other : Nat) : Prop :=
  other ∉ doc.walk id .descendantOrSelf ∨
    ∃ below ∈ doc.walk id .descendant, (Node.found below 0).attr doc "xml:lang" ≠ "" ∧
      other ∈ doc.walk below .descendantOrSelf

/-- Two documents that differ in one element at most, and in no place. -/
structure AlikeBut (id : Nat) (doc changed : Document) : Prop where
  size_eq : changed.size = doc.size
  parent?_eq : ∀ other, changed.parent? other = doc.parent? other
  element?_eq : ∀ other, other ≠ id → changed.element? other = doc.element? other

section Change

variable {tree changed : Tree} {language : String} {id other place parent : Nat}

theorem mem_descendantOrSelf_iff (small : other < (ofTree tree language).size) :
    other ∈ (ofTree tree language).walk id .descendantOrSelf ↔
      id ∈ other :: (ofTree tree language).ancestors other := by
  have behind := lt_stop small
  rw [List.mem_cons, mem_ancestors_iff, walk, List.mem_range'_1]
  constructor
  · rintro ⟨before, within⟩
    exact (Nat.eq_or_lt_of_le before).imp_right fun later => ⟨later, by omega⟩
  · rintro (rfl | ⟨before, within⟩)
    · exact ⟨Nat.le_refl _, by omega⟩
    · exact ⟨Nat.le_of_lt before, by omega⟩

theorem ne_of_untouched (small : other < (ofTree tree language).size)
    (untouched : (ofTree tree language).Untouched id other) : other ≠ id := by
  rintro rfl
  rcases untouched with outside | ⟨below, within, -, inside⟩
  · exact outside ((mem_descendantOrSelf_iff small).2 List.mem_cons_self)
  · have later := (mem_descendant_iff.1 within).1
    have before := (List.mem_range'_1.1 inside).1
    omega

/-- Where an element declares no language, what leaves it alone leaves its parent alone. -/
theorem untouched_parent (untouched : (ofTree tree language).Untouched id other)
    (bare : (Node.found other 0).attr (ofTree tree language) "xml:lang" = "")
    (up : (ofTree tree language).parent? other = some parent) :
    (ofTree tree language).Untouched id parent := by
  have small := lt_size_of_parent? up
  have less := Nat.lt_trans (parent?_lt up) small
  simp only [Untouched, mem_descendantOrSelf_iff small, mem_descendantOrSelf_iff less,
    ancestors_of_parent up] at untouched ⊢
  rcases untouched with outside | ⟨below, within, own, inside⟩
  · exact .inl fun member => outside (List.mem_cons_of_mem _ member)
  · refine .inr ⟨below, within, own, (List.mem_cons.1 inside).resolve_left ?_⟩
    rintro rfl
    exact own bare

theorem attr_eq (alike : AlikeBut id (ofTree tree language) (ofTree changed language))
    (apart : other ≠ id) (place : Nat) (name : String) :
    (Node.found other place).attr (ofTree changed language) name =
      (Node.found other place).attr (ofTree tree language) name := by
  rw [Node.attr, Node.element?, alike.element?_eq other apart]
  rfl

/-- What one element declares is not seen where another declaration is nearer, or where it is not
around. -/
theorem languageAt_untouched (alike : AlikeBut id (ofTree tree language) (ofTree changed language))
    (small : other < (ofTree tree language).size)
    (untouched : (ofTree tree language).Untouched id other) (place : Nat) :
    (Node.found other place).languageAt (ofTree changed language) =
      (Node.found other place).languageAt (ofTree tree language) := by
  induction other using Nat.strong_induction_on generalizing place with
  | _ other ih =>
    have small' : other < (ofTree changed language).size := alike.size_eq ▸ small
    have same := attr_eq alike (ne_of_untouched small untouched) place "xml:lang"
    by_cases bare : (Node.found other place).attr (ofTree tree language) "xml:lang" = ""
    · cases up : (ofTree tree language).parent? other with
      | none =>
        rw [languageAt_root small bare up,
          languageAt_root small' (same.trans bare) ((alike.parent?_eq other).trans up)]
      | some parent =>
        have less := parent?_lt up
        rw [languageAt_parent small bare up,
          languageAt_parent small' (same.trans bare) ((alike.parent?_eq other).trans up)]
        exact ih parent less (Nat.lt_trans less small) (untouched_parent untouched bare up) 0
    · rw [languageAt_own small bare, languageAt_own small' (same.symm ▸ bare), same]

theorem alikeBut_putAttributes (attributes : List (Name × String))
    (small : id < (ofTree tree language).size) :
    AlikeBut id (ofTree tree language) (ofTree (tree.putAttributes attributes id) language) := by
  rw [size_ofTree] at small
  have root := rootOnly_putAttributes attributes small
  constructor
  · rw [size_ofTree, size_ofTree, ← count_root, ← count_root, root, Forest.count_putAttributes]
  · intro other
    rw [parent?, parent?, ← Array.getElem?_toList, ← Array.getElem?_toList, parents_ofTree,
      parents_ofTree, root, Forest.parents_putAttributes]
  · intro other apart
    rw [element?_eq, element?_eq, elements_ofTree, elements_ofTree, root,
      Forest.elements_putAttributes _ _ _ _ apart]

theorem attributes_of_putAttributes (attributes : List (Name × String))
    (small : id < (ofTree tree language).size) :
    ((ofTree (tree.putAttributes attributes id) language).element? id).map (·.attributes) =
      some (attributes.map fun (name, value) => (name.expanded, value)) := by
  rw [size_ofTree] at small
  rw [element?_eq, elements_ofTree, rootOnly_putAttributes attributes small]
  exact Forest.attributes_putAttributes _ id 0 0 (count_root tree ▸ small)

end Change

/-- Conditions and languages are inherited, and the language that one element declares holds nowhere but
in its subtree, down to the elements that declare their own. -/
theorem inherits_ofTree (tree : Tree) (language : String) :
    (ofTree tree language).Inherits ∧
      ∀ attributes, ∀ id < (ofTree tree language).size,
        ((ofTree (tree.putAttributes attributes id) language).element? id).map (·.attributes) =
            some (attributes.map fun (name, value) => (name.expanded, value)) ∧
          ∀ other < (ofTree tree language).size, (ofTree tree language).Untouched id other →
            ∀ place tag, (Node.found other place).hasLanguage
                (ofTree (tree.putAttributes attributes id) language) tag =
              (Node.found other place).hasLanguage (ofTree tree language) tag := by
  refine ⟨inherits tree language, fun attributes id inside => ⟨?_, ?_⟩⟩
  · exact attributes_of_putAttributes attributes inside
  · intro other small untouched place tag
    have alike := alikeBut_putAttributes attributes inside
    rw [hasLanguage_eq, hasLanguage_eq, languageAt_untouched alike small untouched]

/-- A text that quotes a paragraph in another language. -/
def quoting : Tree :=
  let speaks (language : String) : List (Name × String) := [(⟨some Name.xmlSpace, "lang"⟩, language)]
  ⟨⟨⟨none, "body"⟩, speaks "en", 1, 1⟩,
    .element ⟨⟨none, "q"⟩, speaks "de-at", 2, 1⟩ (.element ⟨⟨none, "p"⟩, [], 3, 1⟩ .nil .nil) .nil⟩

theorem inherits_quoting : (ofTree quoting standardLanguage).Untouched 0 2 ∧
    (Node.found 2 0).hasLanguage (ofTree quoting standardLanguage) "DE" = true ∧
    (Node.found 2 0).hasLanguage (ofTree (quoting.putAttributes [] 0) standardLanguage) "DE" = true := by
  have untouched : (ofTree quoting standardLanguage).Untouched 0 2 :=
    .inr ⟨1, by decide +kernel, by decide +kernel, by decide +kernel⟩
  have german : (Node.found 2 0).hasLanguage (ofTree quoting standardLanguage) "DE" = true := by
    decide +kernel
  refine ⟨untouched, german, ?_⟩
  rw [← german]
  exact ((inherits_ofTree quoting standardLanguage).2 [] 0 (by decide +kernel)).2 2 (by decide +kernel)
    untouched 0 "DE"

end Document

end TopicLint
