import TopicLint.Proofs.Document.Nearest
import TopicLint.Proofs.Xml.Named
import TopicLint.Report.Diagnostic

/-! What names tell about elements. An element has an expanded name, which queries compare, and one that people
are shown. Both tell elements apart as their namespaces and local names do, also across documents, and the
latter can be used as a filter. -/

namespace TopicLint

/-- The namespace and the local name of the element with a number. -/
def Tree.name? (tree : Tree) (id : Nat) : Option Name := (tree.subtrees[id]?).map (·.tag.name)

namespace Document

/-- Whether two elements, each of a document of its own, count as having the same name: as a filter the shown
name of the one matches the other, the expanded names are equal, and so are the shown ones. -/
structure Compares (doc other : Document) (node node' : Node) (same : Prop) : Prop where
  matchesName_iff : node.matchesName doc (node'.name other) = true ↔ same
  tag_eq_iff : (node.element? doc).map (·.tag) = (node'.element? other).map (·.tag) ↔ same
  name_eq_iff : node.name doc = node'.name other ↔ same

/-- As a filter a text selects the elements of one name and no others, and queries go to the nearest of them. -/
structure PicksOut (doc : Document) (tree : Tree) (filter : String) (name : Name) : Prop where
  matchesName_iff : ∀ id place, (Node.found id place).matchesName doc filter = true ↔ tree.name? id = some name
  matching_eq : ∀ ids, doc.matching filter ids = ids.filter fun id => tree.name? id = some name
  along_eq : ∀ node axis, (node.along doc axis filter).id? =
    (doc.reached axis node).find? fun id => tree.name? id = some name

section Named

variable {tree other : Tree} {language language' : String} {id id' place place' : Nat} {name name' : Name}

theorem isLocal_of_name? (named : tree.Named) (there : tree.name? id = some name) :
    Name.IsLocal name.base := by
  obtain ⟨subtree, found, rfl⟩ := Option.map_eq_some_iff.1 there
  exact named subtree (List.mem_of_getElem? found)

/-- An element has both its names from the tree. -/
theorem exists_of_name? (there : tree.name? id = some name) :
    ∃ element, (ofTree tree language).element? id = some element ∧ element.tag = name.expanded ∧
      element.name = name.shown := by
  obtain ⟨subtree, found, rfl⟩ := Option.map_eq_some_iff.1 there
  have small : id < (ofTree tree language).size := by
    rw [size_ofTree]
    exact (List.getElem?_eq_some_iff.1 found).1
  obtain ⟨element, present⟩ := exists_element small
  obtain ⟨subtree', found', describes, -⟩ := describes_element present
  obtain rfl : subtree = subtree' := Option.some.inj (found.symm.trans found')
  exact ⟨element, present, describes.tag_eq, describes.name_eq⟩

theorem element?_eq_none_of_name? (missing : tree.name? id = none) :
    (ofTree tree language).element? id = none := by
  cases present : (ofTree tree language).element? id with
  | none => rfl
  | some element =>
    obtain ⟨subtree, found, -⟩ := describes_element present
    rw [Tree.name?, found] at missing
    cases missing

theorem name_found (there : tree.name? id = some name) :
    (Node.found id place).name (ofTree tree language) = name.shown := by
  obtain ⟨element, present, -, shown⟩ := @exists_of_name? _ language _ _ there
  rw [Node.name, Node.element?, present, ← shown]
  rfl

/-- What a name is shown with matches the elements that have the name. -/
theorem matchesName_shown (named : tree.Named) (isLocal : Name.IsLocal name.base) :
    (Node.found id place).matchesName (ofTree tree language) name.shown = true ↔
      tree.name? id = some name := by
  cases there : tree.name? id with
  | none =>
    rw [Node.matchesName, Node.element?, element?_eq_none_of_name? there]
    exact iff_of_false Bool.false_ne_true (Option.some_ne_none name).symm
  | some own =>
    obtain ⟨element, present, tag, -⟩ := @exists_of_name? _ language _ _ there
    rw [Node.matchesName, Node.element?, present]
    simp only [beq_eq_false_iff_ne.2 (Name.shown_ne_anyName isLocal), Bool.false_or, beq_iff_eq, tag,
      Name.expand_shown isLocal, Option.some.injEq]
    exact Name.expanded_inj (isLocal_of_name? named there) isLocal

theorem compares (named : tree.Named) (named' : other.Named) (there : tree.name? id = some name)
    (there' : other.name? id' = some name') :
    Compares (ofTree tree language) (ofTree other language') (.found id place) (.found id' place')
      (name = name') where
  matchesName_iff := by
    rw [name_found there', matchesName_shown named (isLocal_of_name? named' there'), there,
      Option.some.injEq]
  tag_eq_iff := by
    obtain ⟨element, present, tag, -⟩ := @exists_of_name? _ language _ _ there
    obtain ⟨element', present', tag', -⟩ := @exists_of_name? _ language' _ _ there'
    rw [Node.element?, Node.element?, present, present', Option.map_some, Option.map_some,
      Option.some.injEq, tag, tag']
    exact Name.expanded_inj (isLocal_of_name? named there) (isLocal_of_name? named' there')
  name_eq_iff := by
    rw [name_found there, name_found there']
    exact Name.shown_inj (isLocal_of_name? named there) (isLocal_of_name? named' there')

theorem picksOut_shown (named : tree.Named) (isLocal : Name.IsLocal name.base) :
    (ofTree tree language).PicksOut tree name.shown name := by
  have matching (ids : List Nat) : (ofTree tree language).matching name.shown ids =
      ids.filter fun id => tree.name? id = some name :=
    List.filter_congr fun id _ => Bool.eq_iff_iff.2 <| by
      rw [matchesName_shown named isLocal, decide_eq_true_iff]
  exact {
    matchesName_iff _ _ := matchesName_shown named isLocal
    matching_eq := matching
    along_eq _ _ := by rw [Node.id?_along, matching, List.head?_filter] }

/-- All documents that are read have local names which the marks of expanded and written names are not part
of. Among such documents two elements have the same namespace and local name if the one matches the shown name
of the other, if their expanded names are equal, and if their shown names are. So an element matches its own
name, and the name in a finding selects the elements of that name in every document. -/
theorem names_identify : (∀ text tree, Xml.parse text = some tree → tree.Named) ∧
    ∀ tree other : Tree, tree.Named → other.Named →
      ∀ language language' id id' place place' name name',
      tree.name? id = some name → other.name? id' = some name' →
        (ofTree tree language).Compares (ofTree other language') (.found id place) (.found id' place')
          (name = name') ∧
        (Node.found id place).matchesName (ofTree tree language)
          ((Node.found id place).name (ofTree tree language)) = true ∧
        ∀ source severity message file, ∃ shown,
          (Diagnostic.ofNode (ofTree tree language) source severity message file
            (.found id place)).element = some shown ∧
          (ofTree other language').PicksOut other shown name := by
  refine ⟨fun _ _ => Xml.named_of_parse, ?_⟩
  intro tree other named named' language language' id id' place place' name name' there there'
  refine ⟨compares named named' there there', ?_, fun source severity message file => ?_⟩
  · exact (compares named named there there).matchesName_iff.2 rfl
  · refine ⟨name.shown, ?_, picksOut_shown named' (isLocal_of_name? named there)⟩
    exact congrArg some (name_found there)

/-- A document with an element in the namespace of topics, under a prefix that is not the usual one, and inside
it one in a namespace with a colon and braces. -/
def borrowed : String := "<f:p xmlns:f=\"http://www.madcapsoftware.com/Schemas/MadCap.xsd\">" ++
  "<q xmlns=\"urn:a\x7bb\x7d\"/></f:p>"

/-- The same names, the one inside the other. -/
def turned : String := "<g:q xmlns:g=\"urn:a\x7bb\x7d\">" ++
  "<p xmlns=\"http://www.madcapsoftware.com/Schemas/MadCap.xsd\"/></g:q>"

/-- The outer element of one document has the name of the inner one of the other, and of no other element. -/
theorem names_identify_turned : ∃ tree other, Xml.parse borrowed = some tree ∧ Xml.parse turned = some other ∧
    (Node.found 0 0).matchesName (ofTree tree "en-us") ((Node.found 1 0).name (ofTree other "en-us")) = true ∧
    (Node.found 0 0).name (ofTree tree "en-us") ≠ (Node.found 0 0).name (ofTree other "en-us") ∧
    (ofTree other "en-us").matching ((Node.found 0 0).name (ofTree tree "en-us")) [0, 1] = [1] := by
  have first : (Xml.parse borrowed).bind (·.name? 0) = some ⟨some Name.topicSpace, "p"⟩ := by decide +kernel
  have second : (Xml.parse turned).map (fun other => (other.name? 0, other.name? 1)) =
      some (some ⟨some "urn:a\x7bb\x7d", "q"⟩, some ⟨some Name.topicSpace, "p"⟩) := by decide +kernel
  obtain ⟨tree, read, outer⟩ := Option.bind_eq_some_iff.1 first
  obtain ⟨other, read', both⟩ := Option.map_eq_some_iff.1 second
  obtain ⟨around, inner⟩ := Prod.mk.inj both
  have named := names_identify.1 _ _ read
  have named' := names_identify.1 _ _ read'
  have agree := names_identify.2 tree other named named' "en-us" "en-us"
  obtain ⟨same, -, shows⟩ := agree 0 1 0 0 _ _ outer inner
  obtain ⟨apart, -⟩ := agree 0 0 0 0 _ _ outer around
  refine ⟨tree, other, read, read', same.matchesName_iff.2 rfl, ?_, ?_⟩
  · exact fun equal => absurd (apart.name_eq_iff.1 equal) (by decide)
  · obtain ⟨shown, found, picks⟩ := shows "rule" .error "message" "a.htm"
    obtain rfl : (Node.found 0 0).name (ofTree tree "en-us") = shown := Option.some.inj found
    rw [picks.matching_eq, List.filter_cons, List.filter_singleton, around, inner]
    decide

end Named

end Document

end TopicLint
