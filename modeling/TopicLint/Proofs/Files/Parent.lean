import TopicLint.Proofs.Files.Path
import TopicLint.Proofs.Text.Words

/-! The directory that a path names something in. Its path has the steps of the other one but for the last,
and is the beginning of it, spelled as it is. -/

namespace TopicLint.Path

section Written

variable {text : List Char} {front back : List (List Char)}

theorem intercalate_pieces (text : List Char) :
    List.intercalate ['/'] (Text.pieces isSlash text) = text := by
  induction text with
  | nil => rfl
  | cons c rest ih =>
    obtain ⟨piece, more, split⟩ := List.exists_cons_of_ne_nil (@Text.pieces_ne_nil isSlash rest)
    rw [split] at ih
    rw [Text.pieces, split]
    by_cases slashed : isSlash c = true
    · rw [if_pos slashed, List.intercalate_cons_cons, ih, of_decide_eq_true slashed]
      rfl
    · rw [if_neg slashed, List.modifyHead_cons, ← ih]
      cases more <;> rfl

/-- How a path starts, in writing. -/
def startOf (text : List Char) : List Char := ((layout text).head.map Step.start).getD []

theorem startOf_append (text : List Char) :
    startOf text ++ List.intercalate ['/'] (layout text).body = text := by
  unfold startOf layout
  split
  next rest => exact congrArg ('/' :: ·) (intercalate_pieces rest)
  next => rfl
  next rest => exact congrArg ('.' :: ·) (intercalate_pieces ('/' :: rest))
  next => exact intercalate_pieces text

theorem head_layout (text : List Char) :
    (layout text).head = none ∨ (layout text).head = some .root ∨ (layout text).head = some .here := by
  unfold layout
  split <;> simp

theorem whole_of_mem_body {piece : List Char} (member : piece ∈ (layout text).body) (c : Char)
    (inside : c ∈ piece) : isSlash c = false := by
  unfold layout at member
  split at member
  next rest => exact (Text.isPiece_of_mem_pieces member).1 c inside
  next =>
    rw [List.mem_singleton.1 member] at inside
    cases inside
  next rest => exact (Text.isPiece_of_mem_pieces member).1 c inside
  next => exact (Text.isPiece_of_mem_pieces member).1 c inside

theorem toList_written (text : List Char) (front : List (List Char)) :
    (Layout.written ⟨(layout text).head, front⟩).toList =
      startOf text ++ List.intercalate ['/'] front := String.toList_ofList

/-- What is written of a path up to some piece is its beginning. -/
theorem written_before (before : front <+: (layout text).body) :
    (Layout.written ⟨(layout text).head, front⟩).toList <+: text := by
  have within : startOf text ++ List.intercalate ['/'] front <+:
      startOf text ++ List.intercalate ['/'] (layout text).body := by
    rw [List.prefix_append_right_inj]
    exact Text.intercalate_before before
  rwa [startOf_append, ← toList_written] at within

/-- What is written of a path up to some piece is cut into the same pieces again. -/
theorem layout_written (filled : front ≠ []) (before : front <+: (layout text).body) :
    layout (Layout.written ⟨(layout text).head, front⟩).toList = ⟨(layout text).head, front⟩ := by
  rw [toList_written]
  obtain ⟨back, split⟩ := before
  have whole := startOf_append text
  rw [← split] at whole
  by_cases last : back = []
  · rw [last, List.append_nil] at whole split
    rw [whole, split]
  have kept : Text.pieces isSlash (List.intercalate ['/'] back) = back :=
    Text.pieces_intercalate rfl last fun piece member =>
      whole_of_mem_body (split ▸ List.mem_append_right front member)
  rw [Text.intercalate_append filled last, ← List.append_assoc] at whole
  by_cases nothing : startOf text ++ List.intercalate ['/'] front = []
  · -- A path that starts with a slash has a written start.
    rw [nothing, List.nil_append] at whole
    have start : startOf text = ['/'] := by rw [← whole]; rfl
    rw [start] at nothing
    cases nothing
  · have laid := layout_append nothing (List.intercalate ['/'] back)
    rw [whole, kept] at laid
    have body := List.append_cancel_right (split.trans (congrArg Layout.body laid))
    exact congrArg₂ Layout.mk (congrArg Layout.head laid).symm body.symm

end Written

section Trimmed

theorem exists_trimEnd (pieces : List (List Char)) :
    ∃ idle, pieces = trimEnd pieces ++ idle ∧ ∀ piece ∈ idle, isIdle piece = true := by
  refine ⟨(pieces.reverse.takeWhile isIdle).reverse, ?_, fun piece member => ?_⟩
  · rw [trimEnd, ← List.reverse_append, List.takeWhile_append_dropWhile, List.reverse_reverse]
  · exact List.mem_takeWhile_imp (List.mem_reverse.1 member)

theorem trimEnd_before (pieces : List (List Char)) : trimEnd pieces <+: pieces := by
  obtain ⟨idle, split, -⟩ := exists_trimEnd pieces
  exact ⟨idle, split.symm⟩

/-- Pieces that are left out add no step. -/
theorem moves_trimEnd (pieces : List (List Char)) :
    (trimEnd pieces).flatMap movesOf = pieces.flatMap movesOf := by
  obtain ⟨idle, split, all⟩ := exists_trimEnd pieces
  have nothing : idle.flatMap movesOf = [] := by
    rw [List.flatMap_eq_nil_iff]
    intro piece member
    rw [movesOf, if_pos (all piece member)]
  have whole := congrArg (List.flatMap movesOf) split
  rw [List.flatMap_append, nothing, List.append_nil] at whole
  exact whole.symm

/-- What is left ends in a piece that adds a step. -/
theorem isIdle_last {pieces front : List (List Char)} {last : List Char}
    (ends : trimEnd pieces = front ++ [last]) : isIdle last = false := by
  rw [trimEnd, List.reverse_eq_iff, List.reverse_append, List.reverse_singleton,
    List.singleton_append] at ends
  have first := List.head?_dropWhile_not isIdle pieces.reverse
  rw [ends] at first
  simpa using first

end Trimmed

section Parent

variable {path above : String}

theorem steps_written {front : List (List Char)} (before : front <+: (layout path.toList).body) :
    steps (Layout.written ⟨(layout path.toList).head, front⟩) =
      (layout path.toList).head.toList ++ front.flatMap movesOf := by
  by_cases empty : front = []
  · subst empty
    rcases head_layout path.toList with head | head | head <;> rw [head] <;> rfl
  · rw [steps_eq, moves, layout_written empty before, moves_pieces]

theorem steps_eq_flatMap (path : String) : steps path =
    (layout path.toList).head.toList ++ (trimEnd (layout path.toList).body).flatMap movesOf := by
  rw [moves_trimEnd, ← moves_pieces]
  rfl

theorem isAbsolute_iff : isAbsolute path = true ↔ Step.root ∈ steps path := by
  obtain ⟨rest, same, rootless⟩ := exists_steps path
  rw [same]
  cases isAbsolute path <;> simp [rootless]

/-- The directory above has the steps of a path but for the last one, which is not the root. -/
theorem steps_parent (up : parent path = some above) :
    (∃ last, steps path = steps above ++ [last] ∧ last ≠ .root) ∧ above.toList <+: path.toList := by
  rw [steps_eq_flatMap]
  unfold parent at up
  dsimp only at up
  split at up
  next head body =>
    cases up
    rw [head, body]
    exact ⟨⟨.here, rfl, by decide⟩, List.nil_prefix⟩
  next => cases up
  next filled _ =>
    obtain empty | ⟨front, last, ends⟩ := List.eq_nil_or_concat (trimEnd (layout path.toList).body)
    · exact absurd empty filled
    rw [List.concat_eq_append] at ends
    rw [ends, List.dropLast_concat] at up
    cases up
    have before : trimEnd front <+: (layout path.toList).body :=
      (trimEnd_before front).trans ((List.prefix_append front [last]).trans (ends ▸ trimEnd_before _))
    refine ⟨⟨.ofPiece last, ?_, ?_⟩, written_before before⟩
    · rw [ends, steps_written before, moves_trimEnd, List.flatMap_append, List.flatMap_singleton, movesOf,
        isIdle_last ends, List.append_assoc]
      rfl
    · exact (ofPiece_ne_start last).1

/-- A path without a directory above is the root or leads nowhere. -/
theorem steps_of_parent_eq_none (top : parent path = none) :
    steps path = if isAbsolute path then [.root] else [] := by
  have simple : steps path = (layout path.toList).head.toList ∧ (layout path.toList).head ≠ some .here := by
    rw [steps_eq_flatMap]
    unfold parent at top
    dsimp only at top
    split at top
    next => cases top
    next body other =>
      rw [body]
      exact ⟨List.append_nil _, fun here => other here⟩
    next => cases top
  have absolute := @isAbsolute_iff path
  rw [simple.1] at absolute ⊢
  rcases head_layout path.toList with head | head | head
  · rw [head] at absolute ⊢
    rw [if_neg (mt absolute.1 List.not_mem_nil)]
    rfl
  · rw [head] at absolute ⊢
    rw [if_pos (absolute.2 List.mem_cons_self)]
    rfl
  · exact absurd head simple.2

theorem isAbsolute_parent (up : parent path = some above) : isAbsolute above = isAbsolute path := by
  obtain ⟨⟨last, same, other⟩, -⟩ := steps_parent up
  rw [Bool.eq_iff_iff, isAbsolute_iff, isAbsolute_iff, same, List.mem_append, List.mem_singleton,
    or_iff_left other.symm]

theorem length_parent_lt (up : parent path = some above) : above.length < path.length := by
  obtain ⟨⟨last, same, -⟩, before⟩ := steps_parent up
  rw [← String.length_toList, ← String.length_toList]
  refine before.length_le.lt_of_ne fun long => ?_
  rw [String.toList_inj.1 (before.eq_of_length long), List.self_eq_append_right] at same
  cases same

end Parent

end TopicLint.Path
