import TopicLint.Files.Search
import TopicLint.Proofs.Files.Path
import TopicLint.Proofs.Files.Wildcard

/-! What a search finds. The last name of a pattern is looked for behind the names that the path of a
directory is cut into. Whatever these are, each entry that is found has a name that the last name
matches. -/

namespace TopicLint

namespace Search

variable {disk : Disk} {last : List Wildcard.Part} {found path : String}

/-- An entry with a name that a pattern matches. -/
def Ends (last : List Wildcard.Part) (found : String) : Prop :=
  ∃ base name, found = Path.join base name ∧ Wildcard.isMatch last name = true

theorem same_iff : Path.same path "." = true ↔ Path.steps path = [.here] := beq_iff_eq

theorem moves_of_same (same : Path.same path "." = true) :
    Path.isAbsolute path = false ∧ Path.moves path = [] := by
  rw [same_iff] at same
  rcases Path.steps_cases path with ⟨-, steps⟩ | ⟨relative, steps | steps⟩
  · rw [steps] at same
    cases same
  · rw [steps] at same
    exact absurd rfl (Path.ne_start_of_mem_moves (same ▸ List.mem_cons_self)).2
  · rw [steps] at same
    exact ⟨relative, (List.cons.inj same).2⟩

/-- Entries have the paths of a directory with their names joined to it, also in the working directory. -/
theorem exists_entryBase (path : String) : ∃ base, (∀ name, entryPath path name = Path.join base name) ∧
    Path.isAbsolute base = Path.isAbsolute path ∧ Path.moves base = Path.moves path := by
  by_cases same : Path.same path "." = true
  · obtain ⟨relative, still⟩ := moves_of_same same
    refine ⟨"", fun name => ?_, ?_, ?_⟩
    · rw [entryPath, if_pos same, Path.join_empty]
    · rw [relative]
      rfl
    · rw [still]
      rfl
  · exact ⟨path, fun name => if_neg same, rfl, rfl⟩

theorem ends_of_mem_matching {inside : Folder} (plain : last.head? ≠ some (.char '.'))
    (member : found ∈ matching path inside last) : Ends last found := by
  rw [matching, if_neg plain, List.append_nil] at member
  obtain ⟨name, named, rfl⟩ := List.mem_map.1 member
  obtain ⟨base, same, -⟩ := exists_entryBase path
  exact ⟨base, name, same name, (List.mem_filter.1 named).2⟩

theorem exists_base {base : String} {entry : String × String} {inside : Folder}
    (member : entry ∈ inside.descendants base) : ∃ base', entry.1 = Path.join base' entry.2 := by
  induction inside generalizing base with
  | nil => cases member
  | file name text rest ih =>
    rcases List.mem_cons.1 member with rfl | later
    · exact ⟨base, rfl⟩
    · exact ih later
  | directory name inside rest ih ih' =>
    rcases List.mem_cons.1 member with rfl | later
    · exact ⟨base, rfl⟩
    · rcases List.mem_append.1 later with below | beside
      · exact ih below
      · exact ih' beside

theorem ends_of_mem_matchingBelow {inside : Folder}
    (member : found ∈ matchingBelow path inside last) : Ends last found := by
  unfold matchingBelow at member
  obtain ⟨entry, kept, rfl⟩ := List.mem_map.1 member
  obtain ⟨inside, matched⟩ := List.mem_filter.1 kept
  split at inside
  · obtain ⟨base, same⟩ := exists_base inside
    exact ⟨base, entry.2, same, matched⟩
  · obtain ⟨base, same⟩ := exists_base inside
    exact ⟨base, entry.2, same, matched⟩

section Descending

variable (wild : Wildcard.literal? last = none) (shallow : last ≠ [.deep])
  (plain : last.head? ≠ some (.char '.'))

include wild shallow plain

theorem ends_of_mem_descend_last (member : found ∈ descend disk [last] path) :
    Ends last found := by
  rw [descend.eq_3 _ _ _ _ shallow, wild] at member
  dsimp only at member
  split at member
  next inside _ =>
    obtain ⟨entry, matched, here⟩ := List.mem_flatMap.1 member
    rw [descend.eq_1, List.mem_singleton] at here
    exact here ▸ ends_of_mem_matching plain matched
  next => cases member

omit wild plain in
theorem ends_of_mem_descendDeep_last (member : found ∈ descend.descendDeep disk [last] path) : Ends last found := by
  rw [descend.descendDeep.eq_3 _ _ _ _ shallow] at member
  split at member
  next inside _ =>
    obtain ⟨entry, matched, here⟩ := List.mem_flatMap.1 member
    rw [descend.eq_1, List.mem_singleton] at here
    exact here ▸ ends_of_mem_matchingBelow matched
  next => cases member

/-- Whatever names a pattern has before its last one, each entry that is found has a name that the last
one matches. -/
theorem ends_of_mem_descend (patterns : List (List Wildcard.Part)) :
    (∀ path, ∀ found ∈ descend disk (patterns ++ [last]) path, Ends last found) ∧
      ∀ path, ∀ found ∈ descend.descendDeep disk (patterns ++ [last]) path, Ends last found := by
  induction patterns with
  | nil =>
    exact ⟨fun _ _ => ends_of_mem_descend_last wild shallow plain,
      fun _ _ => ends_of_mem_descendDeep_last shallow⟩
  | cons pattern patterns ih =>
    obtain ⟨near, far⟩ := ih
    by_cases deep : pattern = [.deep]
    · subst deep
      exact ⟨far, far⟩
    constructor
    · intro path found member
      rw [List.cons_append, descend.eq_3 _ _ _ _ deep] at member
      split at member
      next name _ =>
        split at member
        next next _ => exact near next found member
        next => cases member
      next =>
        split at member
        next inside _ =>
          obtain ⟨entry, -, below⟩ := List.mem_flatMap.1 member
          exact near entry found below
        next => cases member
    · intro path found member
      rw [List.cons_append, descend.descendDeep.eq_3 _ _ _ _ deep] at member
      split at member
      next inside _ =>
        obtain ⟨entry, -, below⟩ := List.mem_flatMap.1 member
        exact near entry found below
      next => cases member

end Descending

theorem find_eq {pattern : String} {parts : List Wildcard.Part} {names : List (List Wildcard.Part)}
    (whole : Wildcard.read pattern.toList = some parts)
    (read : (pieces pattern.toList).mapM Wildcard.read = some names) :
    find disk pattern =
      some ((descend disk names (if Path.isAbsolute pattern then "/" else ".")).mergeSort Path.atMost) := by
  rw [find, whole, read]
  rfl

section Patterns

/-- A path without the slash that stands for the root. -/
def behindRoot (text : List Char) : List Char := if text.head? = some '/' then text.drop 1 else text

/-- A slash at the end ends no name. -/
theorem pieces_eq (text : List Char) : pieces text =
    if (Text.pieces Path.isSlash (behindRoot text)).getLast? = some [] then
      (Text.pieces Path.isSlash (behindRoot text)).dropLast
    else Text.pieces Path.isSlash (behindRoot text) := rfl

theorem cut_append {front : List Char} (filled : front ≠ []) (rest : List Char) :
    Text.pieces Path.isSlash (behindRoot (front ++ '/' :: rest)) =
      Text.pieces Path.isSlash (behindRoot front) ++ Text.pieces Path.isSlash rest := by
  obtain ⟨c, front, rfl⟩ := List.exists_cons_of_ne_nil filled
  rw [behindRoot, behindRoot, List.cons_append, List.head?_cons, List.head?_cons]
  split
  · exact Text.pieces_append rfl front rest
  · exact Text.pieces_append rfl (c :: front) rest

theorem exists_behindRoot {front : List Char} {c : Char} (plain : Path.isSlash c = false) :
    ∃ left, behindRoot (front ++ [c]) = left ++ [c] := by
  unfold behindRoot
  split
  next absolute =>
    cases front with
    | nil =>
      cases absolute
      cases plain
    | cons d front => exact ⟨front, rfl⟩
  next => exact ⟨front, rfl⟩

variable {word : String} (filled : word ≠ "") (whole : ∀ c ∈ word.toList, Path.isSlash c = false)

include filled whole

/-- The last name of a pattern in a directory is the one that is looked for there. -/
theorem pieces_join (directory : String) :
    pieces (Path.join directory word).toList = pieces directory.toList ++ [word.toList] := by
  have alone : Text.pieces Path.isSlash word.toList = [word.toList] := Text.pieces_of_uncut whole
  have solid : some word.toList ≠ some [] := by simpa using filled
  have relative : word.toList.head? ≠ some '/' := beq_eq_false_iff_ne.1 (Path.isAbsolute_of_whole whole)
  rw [pieces_eq, pieces_eq]
  obtain ⟨rfl, joined⟩ | ⟨front, joined, ends⟩ := Path.join_cases directory whole
  · rw [joined, behindRoot, if_neg relative, alone, List.getLast?_singleton, if_neg solid]
    rfl
  by_cases root : front = []
  · subst root
    obtain ends | ⟨-, apart, -⟩ := ends
    · have inside : behindRoot ([] ++ '/' :: word.toList) = word.toList := rfl
      rw [joined, inside, alone, List.getLast?_singleton, if_neg solid, ends]
      rfl
    · exact absurd rfl apart
  rw [joined, cut_append root, alone, List.getLast?_concat, if_neg solid]
  obtain ends | ⟨ends, -, unended⟩ := ends
  · -- Behind the slash at the end of the path there is an empty name, which is left out.
    have empty : Text.pieces Path.isSlash [] = [[]] := rfl
    rw [ends, cut_append root, empty, List.getLast?_concat, if_pos rfl, List.dropLast_concat]
  · rw [ends]
    obtain rfl | ⟨left, c, same⟩ := List.eq_nil_or_concat front
    · exact absurd rfl root
    rw [List.concat_eq_append] at same
    subst same
    rw [List.getLast?_concat] at unended
    have plain : Path.isSlash c = false := decide_eq_false fun slash => unended (congrArg some slash)
    obtain ⟨behind, same⟩ := @exists_behindRoot left c plain
    obtain ⟨before, piece, last⟩ := Text.exists_last_piece plain behind
    rw [same, last, List.getLast?_concat, if_neg]
    exact fun nothing => List.concat_ne_nil _ _ (Option.some.inj nothing)

/-- What is found by a pattern in a directory has a name that the pattern matches. -/
theorem ends_of_mem_find {directory : String} {paths : List String}
    (read : Wildcard.read word.toList = some last) (wild : Wildcard.literal? last = none)
    (shallow : last ≠ [.deep]) (plain : last.head? ≠ some (.char '.'))
    (all : find disk (Path.join directory word) = some paths) (member : found ∈ paths) :
    Ends last found := by
  have split := pieces_join filled whole directory
  unfold find at all
  obtain ⟨_, -, all⟩ := Option.bind_eq_some_iff.1 all
  obtain ⟨names, named, all⟩ := Option.bind_eq_some_iff.1 all
  rw [split, List.mapM_append] at named
  obtain ⟨patterns, -, named⟩ := Option.bind_eq_some_iff.1 named
  cases all
  have ends : names = patterns ++ [last] := by
    simpa [read, eq_comm] using named
  rw [List.mem_mergeSort, ends] at member
  exact (ends_of_mem_descend wild shallow plain patterns).1 _ found member

end Patterns

end Search

end TopicLint
