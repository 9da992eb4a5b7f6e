import TopicLint.Proofs.Files.Disk
import TopicLint.Proofs.Files.Search
import TopicLint.Proofs.Text.Order

/-! What a search in a directory finds. The path of the directory is part of the pattern, and is read as
one. If nothing in it is a wildcard, the search goes where the path leads, and finds the entries there
whose names the last name of the pattern matches, in the order of their names. -/

namespace TopicLint.Search

open TopicLint.Path (Step)

variable {disk : Disk} {directory path name : String} {inside : Folder} {piece text : List Char}
  {names taken : List (List Char)} {last : List Wildcard.Part}

/-- That names are those of the entries of a directory that end in a text and are of some kind, in their
order. -/
structure Lists (disk : Disk) (directory ending : String) (kind : Entry → Bool) (names : List String) :
    Prop where
  sorted : names.Pairwise (· < ·)
  mem_iff : ∀ name, name ∈ names ↔ ending.toList <:+ name.toList ∧
    ∃ entry, disk.root.at? (disk.locate directory ++ [name]) = some entry ∧ kind entry = true

/-- That a path leads to the entry of a name in a directory. -/
structure Names (disk : Disk) (directory name path : String) : Prop where
  fileName : Path.fileName path = some name
  locate : disk.locate path = disk.locate directory ++ [name]
  look : disk.look path = disk.root.at? (disk.locate directory ++ [name])

/-- Whether names lead on from where a relative path starts. There an empty one leads nowhere. -/
def leadsOn (names : List (List Char)) : Bool := (names.dropWhile (· == ['.'])).head? != some []

/-- A path that means as a pattern what it means as a path: it holds no wildcard, and has no second slash
right behind its start in the working directory. -/
structure IsPlain (directory : String) : Prop where
  chars : ∀ c ∈ directory.toList, Wildcard.isPlain c = true
  steady : Path.isAbsolute directory = true ∨ leadsOn (pieces directory.toList) = true

section Names

theorem mem_pieces (member : piece ∈ pieces text) :
    (∀ c ∈ piece, Path.isSlash c = false) ∧ ∀ c ∈ piece, c ∈ text := by
  have among : piece ∈ Text.pieces Path.isSlash (behindRoot text) := by
    rw [pieces_eq] at member
    split at member
    · exact List.dropLast_subset _ member
    · exact member
  obtain ⟨whole, before, after, split, -⟩ := Text.isPiece_of_mem_pieces among
  refine ⟨whole, fun c inside => ?_⟩
  have within : c ∈ behindRoot text := by
    rw [split]
    exact List.mem_append_left _ (List.mem_append_right _ inside)
  unfold behindRoot at within
  split at within
  · exact List.mem_of_mem_drop within
  · exact within

/-- The names that a path is searched by take the steps that the path takes. -/
theorem moves_eq (path : String) : Path.moves path = (pieces path.toList).flatMap Path.movesOf := by
  have trimmed (names : List (List Char)) :
      (if names.getLast? = some [] then names.dropLast else names).flatMap Path.movesOf =
        names.flatMap Path.movesOf := by
    split
    next empty =>
      obtain ⟨front, rfl⟩ := List.getLast?_eq_some_iff.1 empty
      rw [List.dropLast_concat, List.flatMap_append]
      exact (List.append_nil _).symm
    next => rfl
  rw [Path.moves, Path.moves_pieces, pieces_eq, trimmed]
  generalize path.toList = text
  unfold Path.layout
  split
  next rest => rfl
  next => rfl
  next rest => rfl
  next absolute _ _ =>
    rw [behindRoot, if_neg]
    intro first
    obtain ⟨rest, same⟩ := List.head?_eq_some_iff.1 first
    exact absolute rest same

end Names

section Entering

/-- That a search is at a path when it has taken some names of the path of a directory. -/
structure At (directory : String) (taken : List (List Char)) (path : String) : Prop where
  filled : path ≠ ""
  start : Path.isAbsolute path = Path.isAbsolute directory
  moves : Path.moves path = taken.flatMap Path.movesOf

variable (whole : ∀ c ∈ piece, Path.isSlash c = false)

include whole

theorem moves_piece (filled : piece ≠ []) : Path.moves (String.ofList piece) = Path.movesOf piece := by
  have relative : piece.head? ≠ some '/' := by
    intro first
    have slash := whole '/' (List.mem_of_head? first)
    cases slash
  rw [moves_eq, String.toList_ofList, pieces_eq, behindRoot, if_neg relative, Text.pieces_of_uncut whole,
    List.getLast?_singleton, if_neg fun empty => filled (Option.some.inj empty), List.flatMap_singleton]

theorem At.enter (here : At directory taken path) (steady : Path.same path "." = true → piece ≠ []) :
    At directory (taken ++ [piece]) (entryPath path (String.ofList piece)) := by
  have whole' : ∀ c ∈ (String.ofList piece).toList, Path.isSlash c = false := by
    rwa [String.toList_ofList]
  rw [entryPath]
  split
  next same =>
    obtain ⟨relative, still⟩ := moves_of_same same
    refine ⟨by simpa using steady same, ?_, ?_⟩
    · rw [Path.isAbsolute_of_whole whole', ← here.start, relative]
    · rw [moves_piece whole (steady same), List.flatMap_append, ← here.moves, still,
        List.flatMap_singleton, List.nil_append]
  next =>
    refine ⟨Path.join_ne_empty_of_whole whole' here.filled, ?_, ?_⟩
    · rw [Path.isAbsolute_join whole', here.start]
    · rw [Path.moves_join whole' here.filled, here.moves, String.toList_ofList, List.flatMap_append,
        List.flatMap_singleton]

/-- Where a path starts, only names that are dots leave the search there. -/
theorem leadsOn_enter (here : At directory taken path)
    (steady : Path.same path "." = true → leadsOn (piece :: names) = true)
    (same : Path.same (entryPath path (String.ofList piece)) "." = true) : leadsOn names = true := by
  have whole' : ∀ c ∈ (String.ofList piece).toList, Path.isSlash c = false := by
    rwa [String.toList_ofList]
  rw [entryPath] at same
  split at same
  next start =>
    have leads := steady start
    by_cases empty : piece = []
    · rw [empty] at leads
      cases leads
    have still := (moves_of_same same).2
    rw [moves_piece whole empty, Path.movesOf] at still
    split at still
    next idle =>
      rw [Path.isIdle, Bool.or_eq_true, beq_iff_eq, beq_iff_eq, or_iff_right empty] at idle
      rwa [idle] at leads
    next => cases still
  next away =>
    rw [same_iff, Path.steps_join_piece whole' here.filled, Path.movesOf] at same
    split at same
    next =>
      rw [List.append_nil] at same
      exact absurd (same_iff.2 same) away
    next =>
      have last : Step.ofPiece (String.ofList piece).toList ∈ [Step.here] :=
        same ▸ List.mem_append_right _ List.mem_cons_self
      exact absurd (List.mem_singleton.1 last) (Path.ofPiece_ne_start _).2

end Entering

section Descending

theorem descend_literal (rest : List (List Wildcard.Part)) (piece : List Char) (path : String) :
    descend disk (piece.map .char :: rest) path =
      match enter disk path (String.ofList piece) with
      | some next => descend disk rest next
      | none => [] := by
  have shallow : piece.map Wildcard.Part.char ≠ [.deep] := by
    cases piece <;> simp
  have literal := Wildcard.literal?_chars piece
  rw [descend.eq_3 _ _ _ _ shallow]
  split
  next name found =>
    cases literal.symm.trans found
    exact rfl
  next wild => cases literal.symm.trans wild

theorem enter_eq {between next : Folder} (here : disk.folder? path = some between)
    (there : disk.folder? (entryPath path name) = some next) :
    enter disk path name = some (entryPath path name) := by
  have isDirectory : disk.isDirectory path = true := by rw [Disk.isDirectory, here, Option.isSome_some]
  have holds : disk.holds (entryPath path name) = true := by
    rw [Disk.folder?] at there
    rw [Disk.holds]
    split at there
    next found => rw [found, Option.isSome_some]
    next => cases there
  rw [enter, if_pos isDirectory, if_pos holds, ite_self]

/-- Names without wildcards are entered one by one, up to where the path leads. -/
theorem descend_names (leads : disk.Leads directory inside) (here : At directory taken path)
    (split : pieces directory.toList = taken ++ names)
    (steady : Path.same path "." = true → leadsOn names = true) :
    ∃ base, At directory (pieces directory.toList) base ∧
      descend disk (names.map (·.map .char) ++ [last]) path = descend disk [last] base := by
  have reached {taken names : List (List Char)} {path : String} (here : At directory taken path)
      (split : pieces directory.toList = taken ++ names) : ∃ between, disk.folder? path = some between := by
    have moves : Path.moves directory = Path.moves path ++ names.flatMap Path.movesOf := by
      rw [moves_eq directory, split, List.flatMap_append, here.moves]
    obtain ⟨between, found⟩ := leads.before here.start moves
    exact ⟨between, Disk.folder?_of_leads here.filled found⟩
  induction names generalizing taken path with
  | nil =>
    rw [List.append_nil] at split
    exact ⟨path, split ▸ here, rfl⟩
  | cons piece names ih =>
    have whole := (mem_pieces (split ▸ List.mem_append_right taken List.mem_cons_self)).1
    have solid (same : Path.same path "." = true) : piece ≠ [] := by
      rintro rfl
      cases steady same
    have there := here.enter whole solid
    obtain ⟨between, found⟩ := reached here split
    rw [List.append_cons] at split
    obtain ⟨next, found'⟩ := reached there split
    obtain ⟨base, arrives, same⟩ := ih there split (leadsOn_enter whole here steady)
    refine ⟨base, arrives, ?_⟩
    rw [List.map_cons, List.cons_append, descend_literal, enter_eq found found']
    exact same

/-- The last name is looked for among the entries of the directory. -/
theorem descend_last {ending : List Char} (found : disk.folder? path = some inside) :
    descend disk [.many :: ending.map .char] path =
      (inside.names.filter (ending.isSuffixOf ·.toList)).map (entryPath path) := by
  have shallow : Wildcard.Part.many :: ending.map .char ≠ [.deep] := by simp
  have wild : Wildcard.literal? (.many :: ending.map .char) = none := rfl
  have fits : Wildcard.isMatch (.many :: ending.map .char) = (ending.isSuffixOf ·.toList) := by
    funext name
    rw [Bool.eq_iff_iff, Wildcard.isMatch_ending, List.isSuffixOf_iff_suffix]
  have ends : descend disk [] = fun path => [path] := funext fun path => by rw [descend]
  rw [descend.eq_3 _ _ _ _ shallow, wild]
  simp only [found, ends, List.flatMap_singleton', matching, fits]
  exact List.append_nil _

end Descending

section Listing

variable {word : String} {ending : List Char}

theorem mapM_read (plain : ∀ piece ∈ names, ∀ c ∈ piece, Wildcard.isPlain c = true) :
    names.mapM Wildcard.read = some (names.map (·.map .char)) := by
  induction names with
  | nil => rfl
  | cons piece names ih =>
    obtain ⟨here, later⟩ := List.forall_mem_cons.1 plain
    rw [List.mapM_cons, ih later, Wildcard.read, Wildcard.readFrom_plain here]
    rfl

/-- A pattern in a directory can be read if it can be read on its own. -/
theorem exists_read (plain : IsPlain directory) (whole : ∀ c ∈ word.toList, Path.isSlash c = false)
    (read : ∀ fresh, ∃ parts, Wildcard.readFrom fresh word.toList = some parts) :
    ∃ parts, Wildcard.read (Path.join directory word).toList = some parts := by
  obtain ⟨-, joined⟩ | ⟨front, joined, ends⟩ := Path.join_cases directory whole
  · rw [joined]
    exact read true
  have chars : ∀ c ∈ front ++ ['/'], Wildcard.isPlain c = true := by
    rcases ends with ends | ⟨ends, -⟩
    · exact fun c member => plain.chars c (ends ▸ member)
    · exact List.forall_mem_append.2 ⟨ends ▸ plain.chars, List.forall_mem_singleton.2 rfl⟩
  rw [joined, List.append_cons]
  exact Wildcard.exists_readFrom chars read true

theorem at_start (directory : String) : At directory [] (if Path.isAbsolute directory then "/" else ".") := by
  cases absolute : Path.isAbsolute directory
  · exact ⟨by decide, absolute.symm, rfl⟩
  · exact ⟨by decide, absolute.symm, rfl⟩

theorem IsPlain.steady_start (plain : IsPlain directory)
    (same : Path.same (if Path.isAbsolute directory then "/" else ".") "." = true) :
    leadsOn (pieces directory.toList) = true := by
  rcases plain.steady with absolute | steady
  · rw [if_pos absolute] at same
    cases same
  · exact steady

/-- By a path without wildcards, a search finds the entries of the directory with names that end as they
should. -/
theorem find_ending (start : disk.folder? directory = some inside) (plain : IsPlain directory)
    (written : word.toList = '*' :: ending)
    (ends : (ending.all fun c => Wildcard.isPlain c && ! Path.isSlash c) = true) :
    ∃ base, disk.Leads base inside ∧ disk.locate base = disk.locate directory ∧
      find disk (Path.join directory word) =
        some (((inside.names.filter (ending.isSuffixOf ·.toList)).map (Path.join base)).mergeSort
          Path.atMost) := by
  obtain ⟨filled, leads⟩ := Disk.folder?_eq_some start
  simp only [List.all_eq_true, Bool.and_eq_true, Bool.not_eq_true'] at ends
  have whole : ∀ c ∈ word.toList, Path.isSlash c = false := by
    rw [written]
    exact List.forall_mem_cons.2 ⟨rfl, fun c member => (ends c member).2⟩
  have solid : word ≠ "" := by
    rintro rfl
    cases written
  have star (fresh : Bool) : Wildcard.readFrom fresh word.toList = some (.many :: ending.map .char) := by
    rw [written]
    exact Wildcard.readFrom_star fun c member => (ends c member).1
  obtain ⟨parts, read⟩ := exists_read plain whole fun fresh => ⟨_, star fresh⟩
  have reads : (pieces (Path.join directory word).toList).mapM Wildcard.read =
      some ((pieces directory.toList).map (·.map .char) ++ [.many :: ending.map .char]) := by
    have chars : ∀ piece ∈ pieces directory.toList, ∀ c ∈ piece, Wildcard.isPlain c = true :=
      fun piece member c among => plain.chars c ((mem_pieces member).2 c among)
    rw [pieces_join solid whole, List.mapM_append, mapM_read chars, List.mapM_cons, Wildcard.read, star]
    rfl
  have untaken : pieces directory.toList = [] ++ pieces directory.toList := rfl
  obtain ⟨path, arrives, descends⟩ := descend_names leads (at_start directory) untaken plain.steady_start
  have moves := arrives.moves.trans (moves_eq directory).symm
  have found := Disk.folder?_of_leads arrives.filled (leads.congr arrives.start moves)
  obtain ⟨base, joins, start', moves'⟩ := exists_entryBase path
  refine ⟨base, leads.congr (start'.trans arrives.start) (moves'.trans moves),
    Disk.locate_congr (start'.trans arrives.start) (moves'.trans moves), ?_⟩
  rw [find_eq read reads, Path.isAbsolute_join whole, descends, descend_last found, funext joins]

/-- What is found is what is there, in the order of the names. -/
theorem exists_lists {ending : String} (tidy : disk.root.isTidy = true)
    (start : disk.folder? directory = some inside) (plain : IsPlain directory)
    (written : word.toList = '*' :: ending.toList)
    (ends : (ending.toList.all fun c => Wildcard.isPlain c && ! Path.isSlash c) = true) :
    ∃ base names, find disk (Path.join directory word) = some (names.map (Path.join base)) ∧
      Lists disk directory ending (fun _ => true) names ∧
      ∀ name ∈ names, Names disk directory name (Path.join base name) := by
  obtain ⟨base, leads, same, found⟩ := find_ending start plain written ends
  have within := Disk.tidy_of_folder? tidy start
  have there := Disk.at?_locate start
  let fitting := inside.names.filter (ending.toList.isSuffixOf ·.toList)
  have named (name : String) (member : name ∈ fitting) : Path.isName name = true :=
    Folder.isName_of_mem_names within (List.mem_filter.1 member).1
  refine ⟨base, fitting.mergeSort Text.atMost, ?_, ⟨?_, fun name => ?_⟩, fun name member => ?_⟩
  · rw [found, List.map_mergeSort]
    exact fun one member other member' => (Path.atMost_join (named one member) (named other member')).symm
  · exact Text.pairwise_lt_mergeSort ((Folder.nodup_names within).filter _)
  · rw [List.mem_mergeSort, List.mem_filter, List.isSuffixOf_iff_suffix, Folder.mem_names_iff,
      Folder.at?_append there, Folder.at?_singleton, and_comm]
    simp only [and_true]
  · have isName := named name (List.mem_mergeSort.1 member)
    refine ⟨Path.fileName_join isName, ?_, ?_⟩
    · rw [Disk.locate_join isName, same]
    · rw [Disk.look_join leads isName, same]

end Listing

end TopicLint.Search
