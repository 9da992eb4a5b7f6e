import Mathlib.Data.Prod.Lex
import TopicLint.Files.Path
import TopicLint.Proofs.Text.Blank
import TopicLint.Proofs.Text.Order

/-! Paths. Their order is total, step by step; a path whose text ends in more than a slash or a dot
names something, of which that is the end; and a name joined to a path is one more step. -/

namespace TopicLint.Path

/-- What steps are ordered by: the root, the start, the directory above, and then names. -/
def Step.place : Step → Nat ×ₗ List Char
  | .root => toLex (0, [])
  | .here => toLex (1, [])
  | .up => toLex (2, [])
  | .named name => toLex (3, name)

section Order

variable {a b : Step} {s t u : List Step}

theorem Step.place_injective : Function.Injective Step.place := by
  intro a b same
  cases a <;> cases b <;> simp_all [Step.place]

theorem Step.atMost_iff : a.atMost b = true ↔ a.place ≤ b.place := by
  cases a <;> cases b <;> simp [Step.atMost, Step.place, Prod.Lex.toLex_le_toLex, Text.precedes_iff]

theorem stepsAtMost_iff : stepsAtMost s t = true ↔ s.map Step.place ≤ t.map Step.place := by
  rw [← not_lt]
  induction s generalizing t with
  | nil => simp [stepsAtMost]
  | cons a s ih =>
    cases t with
    | nil => simp [stepsAtMost]
    | cons b t =>
      rw [stepsAtMost, List.map_cons, List.map_cons, List.cons_lt_cons_iff]
      by_cases same : a = b
      · subst same
        simp [ih]
      · have apart : a.place ≠ b.place := Step.place_injective.ne same
        rw [if_neg same, Step.atMost_iff, not_or, not_lt, and_iff_left]
        rintro ⟨equal, -⟩
        exact apart equal.symm

theorem atMost_total (path other : String) : (atMost path other || atMost other path) = true := by
  rw [Bool.or_eq_true, atMost, atMost, stepsAtMost_iff, stepsAtMost_iff]
  exact le_total _ _

theorem atMost_trans (a b c : String) (first : atMost a b = true) (second : atMost b c = true) :
    atMost a c = true :=
  stepsAtMost_iff.2 ((stepsAtMost_iff.1 first).trans (stepsAtMost_iff.1 second))

end Order

section Names

variable {c : Char} {front : List Char}

theorem ends_behind {d : Char} {rest : List Char} (same : front ++ [c] = d :: rest) (apart : d ≠ c) :
    ∃ left, rest = left ++ [c] := by
  cases front with
  | nil => exact absurd (List.cons.inj same).1.symm apart
  | cons _ left => exact ⟨left, (List.cons.inj same).2.symm⟩

theorem exists_layout (plain : isSlash c = false) (solid : c ≠ '.') :
    ∃ head before piece, layout (front ++ [c]) = ⟨head, before ++ [piece ++ [c]]⟩ := by
  have slashed : '/' ≠ c := by
    rintro rfl
    cases plain
  unfold layout
  split
  next rest same =>
    obtain ⟨left, rfl⟩ := ends_behind same slashed
    obtain ⟨before, piece, last⟩ := Text.exists_last_piece plain left
    exact ⟨some .root, before, piece, by rw [last]⟩
  next same =>
    obtain ⟨left, nothing⟩ := ends_behind same solid.symm
    exact absurd nothing.symm (List.concat_ne_nil _ _)
  next rest same =>
    obtain ⟨left, inside⟩ := ends_behind same solid.symm
    obtain ⟨before, piece, last⟩ := Text.exists_last_piece plain left
    exact ⟨some .here, before, piece, by rw [inside, last]⟩
  next =>
    obtain ⟨before, piece, last⟩ := Text.exists_last_piece plain front
    exact ⟨none, before, piece, by rw [last]⟩

/-- A path that ends in neither a slash nor a dot has a file name, which ends as the path does. -/
theorem exists_fileName {path : String} (ends : path.toList = front ++ [c]) (plain : isSlash c = false)
    (solid : c ≠ '.') : ∃ name, fileName path = some (String.ofList (name ++ [c])) := by
  obtain ⟨head, before, piece, laid⟩ := @exists_layout c front plain solid
  have dotless : ∀ text, piece ++ [c] ≠ text ++ ['.'] := by
    intro text same
    exact solid (List.cons.inj (List.append_inj' same rfl).2).1
  have counts : isIdle (piece ++ [c]) = false := by
    rw [isIdle, Bool.or_eq_false_iff, beq_eq_false_iff_ne, beq_eq_false_iff_ne]
    exact ⟨List.concat_ne_nil _ _, dotless []⟩
  have step : Step.ofPiece (piece ++ [c]) = .named (piece ++ [c]) := if_neg (dotless ['.'])
  refine ⟨piece, ?_⟩
  rw [fileName, steps, ends, laid]
  simp [List.filter_append, counts, step]

/-- Joined to a path, another one stands at the end. -/
theorem join_ends (base path : String) : ∃ before, (join base path).toList = before ++ path.toList := by
  unfold join
  split
  · exact ⟨[], rfl⟩
  · split
    · exact ⟨base.toList, String.toList_append ..⟩
    · exact ⟨(base ++ "/").toList, String.toList_append ..⟩

theorem isAbsolute_of_whole {word : String} (whole : ∀ c ∈ word.toList, isSlash c = false) :
    isAbsolute word = false := by
  rw [isAbsolute, beq_eq_false_iff_ne]
  intro first
  have inside := whole '/' (List.mem_of_head? first)
  cases inside

/-- Joined to a path, a name stands alone or behind a slash, which is the one at the end of the path if it
has one there. -/
theorem join_cases (base : String) {word : String} (whole : ∀ c ∈ word.toList, isSlash c = false) :
    (base = "" ∧ (join base word).toList = word.toList) ∨
      ∃ front, (join base word).toList = front ++ '/' :: word.toList ∧
        (base.toList = front ++ ['/'] ∨
          base.toList = front ∧ front ≠ [] ∧ front.getLast? ≠ some '/') := by
  rw [join, isAbsolute_of_whole whole, if_neg Bool.false_ne_true]
  by_cases ready : (base.isEmpty || base.toList.getLast? == some '/') = true
  · rw [if_pos ready, String.toList_append]
    rcases Bool.or_eq_true_iff.1 ready with empty | slashed
    · rw [String.isEmpty_iff.1 empty]
      exact .inl ⟨rfl, rfl⟩
    · obtain ⟨front, same⟩ := List.getLast?_eq_some_iff.1 (beq_iff_eq.1 slashed)
      exact .inr ⟨front, by rw [same, List.append_assoc, List.singleton_append], .inl same⟩
  · rw [if_neg ready, String.toList_append, String.toList_append]
    rw [Bool.or_eq_true, not_or, String.isEmpty_iff, beq_iff_eq] at ready
    exact .inr ⟨base.toList, List.append_assoc .., .inr ⟨rfl, by simpa using ready.1, ready.2⟩⟩

end Names

section Joining

variable {base name piece : String}

/-- Whether a text can be the name of an entry. -/
def isName (name : String) : Bool :=
  ! isIdle name.toList && name.toList != ['.', '.'] && name.toList.all (! isSlash ·)

/-- The steps of a path without the one that says where it starts. -/
def moves (path : String) : List Step :=
  ((layout path.toList).body.filter (! isIdle ·)).map Step.ofPiece

theorem steps_eq (path : String) : steps path = (layout path.toList).head.toList ++ moves path := rfl

theorem isIdle_of_isName (named : isName name = true) : isIdle name.toList = false := by
  rw [isName, Bool.and_eq_true, Bool.and_eq_true, Bool.not_eq_true'] at named
  exact named.1.1

theorem ofPiece_of_isName (named : isName name = true) : Step.ofPiece name.toList = .named name.toList := by
  rw [isName, Bool.and_eq_true, Bool.and_eq_true, bne_iff_ne] at named
  exact if_neg named.1.2

theorem whole_of_isName (named : isName name = true) (c : Char) (member : c ∈ name.toList) :
    isSlash c = false := by
  rw [isName, Bool.and_eq_true, List.all_eq_true] at named
  exact Bool.not_eq_true' _ ▸ named.2 c member

/-- The steps that a piece of a path is. -/
def movesOf (piece : List Char) : List Step := if isIdle piece then [] else [.ofPiece piece]

theorem moves_pieces (pieces : List (List Char)) :
    (pieces.filter (! isIdle ·)).map Step.ofPiece = pieces.flatMap movesOf := by
  induction pieces with
  | nil => rfl
  | cons piece rest ih =>
    rw [List.flatMap_cons, ← ih, movesOf, List.filter_cons]
    cases isIdle piece <;> rfl

theorem movesOf_of_isName (named : isName name = true) : movesOf name.toList = [.named name.toList] := by
  rw [movesOf, isIdle_of_isName named, ofPiece_of_isName named]
  rfl

/-- What stands behind a slash adds pieces to those before it. -/
theorem layout_append {front : List Char} (filled : front ≠ []) (rest : List Char) :
    layout (front ++ '/' :: rest) =
      ⟨(layout front).head, (layout front).body ++ Text.pieces isSlash rest⟩ := by
  have cut (front : List Char) : Text.pieces isSlash (front ++ '/' :: rest) =
      Text.pieces isSlash front ++ Text.pieces isSlash rest := Text.pieces_append rfl front rest
  obtain ⟨c, front, rfl⟩ := List.exists_cons_of_ne_nil filled
  by_cases absolute : c = '/'
  · subst absolute
    exact congrArg (Layout.mk _) (cut front)
  by_cases here : c = '.'
  · subst here
    cases front with
    | nil => rfl
    | cons d front =>
      by_cases slashed : d = '/'
      · subst slashed
        exact congrArg (Layout.mk _) (cut ('/' :: front))
      · rw [layout.eq_4, layout.eq_4, cut] <;> simp [slashed]
  · rw [layout.eq_4, layout.eq_4, cut] <;> simp [absolute, here]

/-- A name is a path of one piece. -/
theorem layout_of_isName (named : isName name = true) : layout name.toList = ⟨none, [name.toList]⟩ := by
  have whole := whole_of_isName named
  have alone : Text.pieces isSlash name.toList = [name.toList] := Text.pieces_of_uncut whole
  rw [← alone]
  apply layout.eq_4
  · intro rest same
    have slashed := whole '/' (same ▸ List.mem_cons_self)
    cases slashed
  · intro same
    have counts := isIdle_of_isName named
    rw [same] at counts
    cases counts
  · intro rest same
    have slashed := whole '/' (same ▸ List.mem_cons_of_mem _ List.mem_cons_self)
    cases slashed

theorem join_empty (path : String) : join "" path = path := by
  rw [join]
  split
  · rfl
  · exact String.empty_append

section Whole

variable (whole : ∀ c ∈ piece.toList, isSlash c = false)

include whole

/-- A piece joined to a path is the last one, behind those that the path has, or all of them but an idle
one. -/
theorem exists_layout_join (filled : base ≠ "") :
    ∃ body, layout (join base piece).toList = ⟨(layout base.toList).head, body ++ [piece.toList]⟩ ∧
      body.filter (! isIdle ·) = (layout base.toList).body.filter (! isIdle ·) := by
  have alone : Text.pieces isSlash piece.toList = [piece.toList] := Text.pieces_of_uncut whole
  obtain ⟨empty, -⟩ | ⟨front, joined, same | ⟨same, filled, -⟩⟩ := join_cases base whole
  · exact absurd empty filled
  · rw [joined, same]
    by_cases nothing : front = []
    · subst nothing
      exact ⟨[], congrArg (Layout.mk _) alone, rfl⟩
    · refine ⟨(layout front).body, ?_, ?_⟩
      · rw [layout_append nothing, layout_append nothing, alone]
      · rw [layout_append nothing, List.filter_append]
        exact (List.append_nil _).symm
  · rw [joined, same]
    exact ⟨(layout front).body, by rw [layout_append filled, alone], rfl⟩

/-- A piece joined to a path adds its steps. -/
theorem moves_join (filled : base ≠ "") :
    moves (join base piece) = moves base ++ movesOf piece.toList := by
  obtain ⟨body, laid, same⟩ := exists_layout_join whole filled
  rw [moves, laid, List.filter_append, same, List.map_append, moves_pieces [piece.toList],
    List.flatMap_singleton]
  rfl

theorem isAbsolute_join : isAbsolute (join base piece) = isAbsolute base := by
  obtain ⟨rfl, -⟩ | ⟨front, joined, same | ⟨same, filled, -⟩⟩ := join_cases base whole
  · rw [join_empty, isAbsolute_of_whole whole]
    rfl
  · rw [isAbsolute, isAbsolute, joined, same]
    cases front <;> rfl
  · rw [isAbsolute, isAbsolute, joined, same]
    obtain ⟨c, rest, rfl⟩ := List.exists_cons_of_ne_nil filled
    rfl

theorem steps_join_piece (filled : base ≠ "") :
    steps (join base piece) = steps base ++ movesOf piece.toList := by
  obtain ⟨body, laid, -⟩ := exists_layout_join whole filled
  rw [steps_eq, moves_join whole filled, laid, ← List.append_assoc, steps_eq]

theorem join_ne_empty_of_whole (filled : base ≠ "") : join base piece ≠ "" := by
  obtain ⟨empty, -⟩ | ⟨front, joined, -⟩ := join_cases base whole
  · exact absurd empty filled
  · intro nothing
    rw [nothing] at joined
    exact List.cons_ne_nil _ _ (List.append_eq_nil_iff.1 joined.symm).2

end Whole

/-- A name joined to a path is one more step. -/
theorem steps_join (named : isName name = true) :
    steps (join base name) = steps base ++ [.named name.toList] := by
  by_cases filled : base = ""
  · rw [filled, join_empty, steps_eq, moves, layout_of_isName named, moves_pieces, List.flatMap_singleton,
      movesOf_of_isName named]
    rfl
  · rw [steps_join_piece (whole_of_isName named) filled, movesOf_of_isName named]

theorem join_ne_empty (named : isName name = true) : join base name ≠ "" := by
  obtain ⟨before, ends⟩ := join_ends base name
  intro empty
  rw [empty] at ends
  have nothing : name.toList = [] := (List.append_eq_nil_iff.1 ends.symm).2
  have counts := isIdle_of_isName named
  rw [nothing] at counts
  cases counts

/-- Pieces between slashes do not say where a path starts. -/
theorem ofPiece_ne_start (piece : List Char) : Step.ofPiece piece ≠ .root ∧ Step.ofPiece piece ≠ .here := by
  unfold Step.ofPiece
  split <;> exact ⟨nofun, nofun⟩

theorem ne_start_of_mem_moves {path : String} {step : Step} (member : step ∈ moves path) :
    step ≠ .root ∧ step ≠ .here := by
  obtain ⟨piece, -, rfl⟩ := List.mem_map.1 member
  exact ofPiece_ne_start piece

/-- A path starts in the root, or from the working directory, said or unsaid. -/
theorem steps_cases (path : String) :
    (isAbsolute path = true ∧ steps path = .root :: moves path) ∨
      (isAbsolute path = false ∧ (steps path = moves path ∨ steps path = .here :: moves path)) := by
  unfold steps moves isAbsolute
  generalize path.toList = text
  unfold layout
  split
  next rest => exact .inl ⟨rfl, rfl⟩
  next => exact .inr ⟨rfl, .inr rfl⟩
  next rest => exact .inr ⟨rfl, .inr rfl⟩
  next absolute _ _ =>
    refine .inr ⟨?_, .inl rfl⟩
    rw [beq_eq_false_iff_ne]
    intro first
    obtain ⟨rest, same⟩ := List.head?_eq_some_iff.1 first
    exact absolute rest same

/-- The root is a step of absolute paths only, and the first one there. -/
theorem exists_steps (path : String) :
    ∃ rest, steps path = (if isAbsolute path then [.root] else []) ++ rest ∧ Step.root ∉ rest := by
  have rootless : Step.root ∉ moves path := fun member => (ne_start_of_mem_moves member).1 rfl
  rcases steps_cases path with ⟨absolute, same⟩ | ⟨relative, same | same⟩
  · exact ⟨_, by rw [same, absolute]; rfl, rootless⟩
  · exact ⟨_, by rw [same, relative]; rfl, rootless⟩
  · exact ⟨_, by rw [same, relative]; rfl, List.not_mem_cons_of_ne_of_not_mem (by decide) rootless⟩

theorem fileName_join (named : isName name = true) : fileName (join base name) = some name := by
  rw [fileName, steps_join named, List.getLast?_concat]
  exact congrArg some String.ofList_toList

theorem stepsAtMost_append (steps s t : List Step) :
    stepsAtMost (steps ++ s) (steps ++ t) = stepsAtMost s t := by
  induction steps with
  | nil => rfl
  | cons step steps ih => rw [List.cons_append, List.cons_append, stepsAtMost, if_pos rfl, ih]

/-- Paths of entries of one directory are in the order of the names. -/
theorem atMost_join {other : String} (named : isName name = true) (named' : isName other = true) :
    atMost (join base name) (join base other) = Text.atMost name other := by
  rw [atMost, steps_join named, steps_join named', stepsAtMost_append, stepsAtMost]
  split
  next same =>
    cases String.toList_inj.1 (Step.named.inj same)
    exact (Text.atMost_iff.2 le_rfl).symm
  next => rfl

end Joining

end TopicLint.Path
