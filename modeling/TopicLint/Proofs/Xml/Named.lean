import TopicLint.Proofs.Document.Name
import TopicLint.Proofs.Document.Preorder
import TopicLint.Xml.Build

/-! The names of documents that are read. Whatever a text declares as entities and namespaces, each element
of its tree has a local name as it is written in some start tag. -/

namespace TopicLint

/-- Whether all elements of a forest, at every depth, have local names. -/
def Forest.Named (forest : Forest) : Prop :=
  ∀ tree ∈ forest.subtrees, Name.IsLocal tree.tag.name.base

def Tree.Named (tree : Tree) : Prop := ∀ subtree ∈ tree.subtrees, Name.IsLocal subtree.tag.name.base

namespace Xml

/-- What a scan takes, whenever it takes something. -/
def Scan.Yields {α : Type} (scan : Scan α) (good : α → Prop) : Prop :=
  ∀ source value rest, scan source = some (value, rest) → good value

/-- Whether an element that the piece starts has a local name. -/
def Piece.Named : Piece → Prop
  | .start name .. => Name.IsLocal name.base
  | .finish _ | .text _ | .literal _ | .note => True

namespace Scan

section Combining

variable {α β : Type} {first : Scan α} {next : α → Scan β} {good : α → Prop} {fine : β → Prop}

theorem bind_eq_some {source : Source} {result : β × Source} :
    (first >>= next) source = some result ↔
      ∃ value between, first source = some (value, between) ∧ next value between = some result := by
  constructor
  · intro taken
    obtain ⟨⟨value, between⟩, one, two⟩ := Option.bind_eq_some_iff.1 taken
    exact ⟨value, between, one, two⟩
  · rintro ⟨value, between, one, two⟩
    exact Option.bind_eq_some_iff.2 ⟨(value, between), one, two⟩

theorem yields_bind (start : Yields first good) (after : ∀ value, good value → Yields (next value) fine) :
    Yields (first >>= next) fine := by
  intro source value rest taken
  obtain ⟨middle, between, one, two⟩ := bind_eq_some.1 taken
  exact after middle (start _ _ _ one) _ _ _ two

/-- What a scan yields at its end is all that counts. -/
theorem yields_behind (after : ∀ value, Yields (next value) fine) : Yields (first >>= next) fine :=
  @yields_bind _ _ first next (fun _ => True) fine (fun _ _ _ _ => trivial) fun value _ => after value

theorem yields_pure {value : α} (holds : good value) : Yields (pure value) good := by
  intro source result rest taken
  cases taken
  exact holds

theorem yields_refuse : Yields (refuse : Scan α) good := by
  intro source value rest taken
  cases taken

theorem yields_ite {c : Prop} [Decidable c] {one two : Scan α} (holds : c → Yields one good)
    (fails : ¬c → Yields two good) : Yields (if c then one else two) good := by
  split
  next here => exact holds here
  next there => exact fails there

end Combining

section Pieces

theorem good_of_mem_run {good : Char → Bool} {text : List Char} {line column : Nat} {c : Char}
    (member : c ∈ (run good text line column).1) : good c = true := by
  induction text generalizing line column with
  | nil => cases member
  | cons d rest ih =>
    rw [run] at member
    split at member
    next here =>
      rcases List.mem_cons.1 member with rfl | later
      · exact here
      · exact ih later
    next => cases member

theorem yields_takeWhile (good : Char → Bool) :
    Yields (takeWhile good) fun taken => ∀ c ∈ taken, good c = true := by
  intro source value rest taken c member
  have same : run good source.rest source.line source.column = (value, rest) := Option.some.inj taken
  rw [← show (run good source.rest source.line source.column).1 = value by rw [same]] at member
  exact good_of_mem_run member

/-- Characters of names, colons apart, make a local name. -/
theorem isLocal_of_continuesName {base : List Char} (good : ∀ c ∈ base, continuesName c = true)
    (colon : ':' ∉ base) : Name.IsLocal (String.ofList base) where
  colon := by rwa [String.toList_ofList]
  opening := by
    rw [String.toList_ofList]
    exact fun member => absurd (good _ member) (by decide)
  closing := by
    rw [String.toList_ofList]
    exact fun member => absurd (good _ member) (by decide)
  single := by
    intro same
    have text : base = ['*'] := by rw [← String.toList_ofList (l := base), same]; rfl
    exact absurd (good '*' (text ▸ List.mem_cons_self)) (by decide)

/-- A refusal yields nothing, whatever comes behind it. -/
theorem yields_refused {α β : Type} {next : α → Scan β} {fine : β → Prop} :
    Yields (refuse >>= next) fine := by
  intro source value rest taken
  cases taken

/-- A name as it is written has a local name behind its colon. -/
theorem yields_written : Yields written fun name => Name.IsLocal name.base := by
  unfold written
  refine yields_bind (yields_takeWhile continuesName) fun whole good => ?_
  have inside : ∀ c ∈ (if whole.contains ':' then
      (whole.takeWhile (· != ':'), (whole.dropWhile (· != ':')).drop 1) else ([], whole)).2,
      continuesName c = true := by
    intro c member
    split at member
    · exact good c ((List.dropWhile_sublist _).subset ((List.drop_sublist _ _).subset member))
    · exact good c member
  generalize (if whole.contains ':' then
    (whole.takeWhile (· != ':'), (whole.dropWhile (· != ':')).drop 1) else ([], whole)) = parts at inside ⊢
  obtain ⟨lead, base⟩ := parts
  refine yields_ite (fun _ => yields_refused) fun sound => yields_pure ?_
  apply isLocal_of_continuesName inside
  simp only [Bool.or_eq_true, not_or, Bool.not_eq_true, List.contains_iff_mem] at sound
  exact sound.1.1

/-- A start tag is all that starts an element. -/
theorem yields_startTag : Yields startTag Piece.Named := by
  refine yields_behind fun here => yields_behind fun _ => ?_
  refine yields_bind yields_written fun name named => ?_
  refine yields_behind fun ⟨attributes, tagEnd⟩ => ?_
  cases tagEnd with
  | missing => exact yields_pure trivial
  | opens | closes => exact yields_pure named

theorem yields_piece : Yields piece Piece.Named := by
  have noted {first : Scan Unit} : Yields (do first; return .note) Piece.Named :=
    yields_behind fun _ => yields_pure trivial
  have ended : Yields endTag Piece.Named :=
    yields_behind fun _ => yields_behind fun _ => yields_behind fun _ => yields_behind fun _ =>
      yields_pure trivial
  have kept : Yields literal Piece.Named :=
    yields_behind fun _ => yields_behind fun _ => yields_pure trivial
  have worded : Yields rawText Piece.Named :=
    yields_behind fun _ => yields_ite (fun _ => yields_refused) fun _ => yields_pure trivial
  refine yields_behind fun _ => yields_ite (fun _ => noted) fun _ => ?_
  refine yields_behind fun _ => yields_ite (fun _ => kept) fun _ => ?_
  refine yields_behind fun _ => yields_ite (fun _ => yields_refuse) fun _ => ?_
  refine yields_behind fun _ => yields_ite (fun _ => noted) fun _ => ?_
  refine yields_behind fun _ => yields_ite (fun _ => ended) fun _ => ?_
  exact yields_behind fun _ => yields_ite (fun _ => yields_startTag) fun _ => worded

/-- A piece in front of others that are taken. -/
theorem named_of_map {item : Piece} {taken : Option (List Piece × Source)} {items : List Piece}
    {last : Source} (here : item.Named)
    (later : ∀ others rest, taken = some (others, rest) → ∀ other ∈ others, other.Named)
    (same : taken.map (fun pair => (item :: pair.1, pair.2)) = some (items, last)) :
    ∀ other ∈ items, other.Named := by
  obtain ⟨⟨others, rest⟩, found, both⟩ := Option.map_eq_some_iff.1 same
  cases both
  exact List.forall_mem_cons.2 ⟨here, later others rest found⟩

theorem yields_pieces (depth : Nat) :
    Yields (pieces depth) fun items => ∀ item ∈ items, item.Named := by
  intro source items last taken
  fun_induction pieces depth source generalizing items last with
  | case1 =>
    cases taken
    exact List.forall_mem_nil _
  | case2 => cases taken
  | case3 =>
    cases taken
    exact List.forall_mem_singleton.2 trivial
  | case4 _ _ _ _ _ _ found ih => exact named_of_map (yields_piece _ _ _ found) ih taken
  | case5 _ _ _ _ _ _ _ _ _ found ih => exact named_of_map (yields_piece _ _ _ found) ih taken
  | case6 _ _ _ _ _ found _ _ _ _ ih => exact named_of_map (yields_piece _ _ _ found) ih taken
  | case7 => cases taken

theorem yields_rootPieces : Yields rootPieces fun items => ∀ item ∈ items, item.Named := by
  refine yields_bind yields_startTag fun item named => ?_
  have alone : Yields (pure [item]) fun items => ∀ item ∈ items, item.Named :=
    yields_pure (List.forall_mem_singleton.2 named)
  split
  · exact yields_bind (yields_pieces 0) fun inside all =>
      yields_pure (List.forall_mem_cons.2 ⟨named, all⟩)
  · exact alone

theorem yields_documentPieces :
    Yields documentPieces fun parts => ∀ item ∈ parts.2, item.Named := by
  have marked : Yields (do
      declaration
      notes
      let entities ← documentType
      spaces
      let pieces ← rootPieces
      notes
      if ← atEnd then return (entities, pieces) else refuse) fun parts => ∀ item ∈ parts.2, item.Named := by
    refine yields_behind fun _ => yields_behind fun _ => yields_behind fun entities => ?_
    refine yields_behind fun _ => yields_bind yields_rootPieces fun items named => ?_
    refine yields_behind fun _ => yields_behind fun _ => ?_
    exact yields_ite (fun _ => yields_pure named) fun _ => yields_refuse
  exact yields_behind fun _ => yields_ite (fun _ => yields_behind fun _ => marked) fun _ => marked

end Pieces

end Scan

section Building

variable {builder filled : Builder}

/-- The elements that a builder has ended, and those that it has not, have local names. -/
structure Builder.Named (builder : Builder) : Prop where
  frames : ∀ frame ∈ builder.frames, Name.IsLocal frame.tag.name.base ∧ frame.items.Named
  top : builder.top.Named

theorem mem_subtrees_reverseOnto {front back : Forest} {tree : Tree} :
    tree ∈ (front.reverseOnto back).subtrees ↔ tree ∈ front.subtrees ∨ tree ∈ back.subtrees := by
  induction front generalizing back with
  | nil => simp [Forest.reverseOnto, Forest.subtrees]
  | text run rest ih => rw [Forest.reverseOnto, ih]; rfl
  | note rest ih => rw [Forest.reverseOnto, ih]; rfl
  | element tag inner rest _ ih =>
    rw [Forest.reverseOnto, ih]
    simp only [Forest.subtrees, List.mem_cons, List.mem_append]
    tauto

theorem named_reverse {forest : Forest} (named : forest.Named) : (forest.reverseOnto .nil).Named := by
  intro tree member
  rcases mem_subtrees_reverseOnto.1 member with inside | nothing
  · exact named tree inside
  · cases nothing

theorem named_element {tag : Tag} {inner rest : Forest} (here : Name.IsLocal tag.name.base)
    (inside : inner.Named) (behind : rest.Named) : (Forest.element tag inner rest).Named := by
  intro tree member
  rcases List.mem_cons.1 member with rfl | deeper
  · exact here
  · rcases List.mem_append.1 deeper with within | later
    · exact inside tree within
    · exact behind tree later

theorem Builder.Named.add {item : Forest → Forest} (named : builder.Named)
    (keeps : ∀ forest : Forest, forest.Named → (item forest).Named) : (builder.add item).Named := by
  unfold Builder.add
  split
  next => exact ⟨named.frames, keeps _ named.top⟩
  next frame outer same =>
    obtain ⟨⟨here, items⟩, others⟩ := List.forall_mem_cons.1 (same ▸ named.frames)
    exact ⟨List.forall_mem_cons.2 ⟨⟨here, keeps _ items⟩, others⟩, named.top⟩

theorem Builder.Named.addText (named : builder.Named) (text : List Char) :
    (builder.addText text).Named := by
  unfold Builder.addText
  split
  · exact named
  · exact named.add fun _ inside => inside

theorem Builder.Named.recount (named : builder.Named) (count : Nat) :
    Builder.Named { builder with count } := ⟨named.frames, named.top⟩

theorem Builder.Named.finish {name : Written} (named : builder.Named)
    (ended : builder.finish name = some filled) : filled.Named := by
  unfold Builder.finish at ended
  split at ended
  next => cases ended
  next frame outer same =>
    split at ended
    next =>
      cases ended
      obtain ⟨⟨here, items⟩, others⟩ := List.forall_mem_cons.1 (same ▸ named.frames)
      have outside : Builder.Named { builder with frames := outer } := ⟨others, named.top⟩
      exact outside.add fun _ behind => named_element here (named_reverse items) behind
    next => cases ended

variable {entities : List Entity} {depth : Nat} {inside : Bool}
  {expand : Source → Builder → Option Builder}

/-- Filling in the content of an entity leaves all names local. -/
def KeepsNamed (expand : Source → Builder → Option Builder) : Prop :=
  ∀ source builder filled, expand source builder = some filled → builder.Named → filled.Named

theorem named_fillText (keeps : KeepsNamed expand) {text : List Char} {keep : Bool} {chunks : List Chunk}
    (named : builder.Named)
    (fills : fillText entities inside expand text keep chunks builder = some filled) : filled.Named := by
  fun_induction fillText entities inside expand text keep chunks builder with
  | case1 text _ builder =>
    cases fills
    exact named.addText text
  | case2 _ _ _ _ _ ih | case3 _ _ _ _ _ _ ih | case4 _ _ _ _ _ _ ih => exact ih named fills
  | case5 text _ name rest builder _ ih =>
    obtain ⟨entity, -, fills⟩ := Option.bind_eq_some_iff.1 fills
    obtain ⟨count, -, fills⟩ := Option.bind_eq_some_iff.1 fills
    obtain ⟨inner, expanded, fills⟩ := Option.bind_eq_some_iff.1 fills
    have before := (named.addText text).recount count
    have within := keeps _ _ _ expanded before
    refine ih inner ?_ fills
    split
    · exact within
    · exact within.recount 0

theorem base_of_elementName {scope : Scope} {written : Written} {name : Name}
    (resolved : elementName scope written = some name) : name.base = written.base := by
  unfold elementName at resolved
  split at resolved
  next => cases resolved
  next =>
    split at resolved
    next =>
      cases resolved
      rfl
    next =>
      obtain ⟨uri, -, same⟩ := Option.map_eq_some_iff.1 resolved
      rw [← same]

theorem named_fillPiece (keeps : KeepsNamed expand) {piece : Piece} (named : builder.Named)
    (good : piece.Named) (fills : fillPiece entities depth inside expand builder piece = some filled) :
    filled.Named := by
  cases piece with
  | note =>
    cases fills
    exact named.add fun _ items => items
  | literal raw =>
    cases fills
    exact named.add fun _ items => items
  | text raw =>
    obtain ⟨chunks, -, fills⟩ := Option.bind_eq_some_iff.1 fills
    exact named_fillText keeps named fills
  | finish name => exact named.finish fills
  | start name raw line column closed =>
    obtain ⟨⟨attributes, count⟩, -, fills⟩ := Option.bind_eq_some_iff.1 fills
    obtain ⟨declared, -, fills⟩ := Option.bind_eq_some_iff.1 fills
    obtain ⟨resolved, found, fills⟩ := Option.bind_eq_some_iff.1 fills
    obtain ⟨listed, -, fills⟩ := Option.bind_eq_some_iff.1 fills
    have here : Name.IsLocal resolved.base := base_of_elementName found ▸ good
    split at fills
    next =>
      cases fills
      exact (named.recount count).add fun _ items => named_element here (fun _ => nofun) items
    next =>
      cases fills
      exact ⟨List.forall_mem_cons.2 ⟨⟨here, fun _ => nofun⟩, named.frames⟩, named.top⟩

theorem named_foldlM (keeps : KeepsNamed expand) {pieces : List Piece}
    (good : ∀ piece ∈ pieces, piece.Named) (named : builder.Named)
    (fills : pieces.foldlM (fillPiece entities depth inside expand) builder = some filled) :
    filled.Named := by
  induction pieces generalizing builder with
  | nil =>
    cases fills
    exact named
  | cons piece rest ih =>
    obtain ⟨here, later⟩ := List.forall_mem_cons.1 good
    rw [List.foldlM_cons] at fills
    obtain ⟨next, one, others⟩ := Option.bind_eq_some_iff.1 fills
    exact ih later (named_fillPiece keeps named here one) others

/-- Induction on the depth: the content of an entity is filled in one level below. -/
theorem named_fill {pieces : List Piece} (good : ∀ piece ∈ pieces, piece.Named) (named : builder.Named)
    (fills : fill entities depth inside pieces builder = some filled) : filled.Named := by
  induction depth generalizing inside pieces builder filled with
  | zero =>
    rw [fill] at fills
    refine named_foldlM ?_ good named fills
    intro _ _ _ impossible
    cases impossible
  | succ deeper ih =>
    rw [fill] at fills
    refine named_foldlM ?_ good named fills
    intro source before after expanded sound
    obtain ⟨⟨content, rest⟩, taken, expanded⟩ := Option.bind_eq_some_iff.1 expanded
    dsimp only at expanded
    split at expanded
    next => exact ih (Scan.yields_pieces 0 _ _ _ taken) sound expanded
    next => cases expanded

theorem named_firstTree {forest : Forest} {tree : Tree} (named : forest.Named)
    (first : firstTree forest = some tree) : tree.Named := by
  fun_induction firstTree forest with
  | case1 => cases first
  | case2 _ rest ih => exact ih named first
  | case3 rest ih => exact ih named first
  | case4 tag inner rest =>
    cases first
    intro subtree member
    refine named subtree ?_
    rcases List.mem_cons.1 member with here | inside
    · exact here ▸ List.mem_cons_self
    · rw [Forest.subtrees, List.append_nil] at inside
      exact List.mem_cons_of_mem _ (List.mem_append_left _ inside)

end Building

/-- The local names of a document that is read are free of the characters that set namespaces apart from
them, and none is a lone asterisk. -/
theorem named_of_parse {text : String} {tree : Tree} (read : parse text = some tree) : tree.Named := by
  obtain ⟨⟨⟨entities, items⟩, rest⟩, taken, read⟩ := Option.bind_eq_some_iff.1 read
  obtain ⟨builder, filled, read⟩ := Option.bind_eq_some_iff.1 read
  have start : Builder.Named .empty := ⟨List.forall_mem_nil _, fun _ => nofun⟩
  have ended := named_fill (Scan.yields_documentPieces _ _ _ taken) start filled
  split at read
  next => exact named_firstTree (named_reverse ended.top) read
  next => cases read

end Xml

end TopicLint
