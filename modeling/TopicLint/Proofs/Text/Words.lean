import TopicLint.Proofs.Text.Blank

/-! Pieces that are put together again, and the words of a text. Words are the pieces between blanks that are
not empty; trimming a text leaves it the same words, and words with single spaces between them are the words
of what they make up. -/

namespace TopicLint.Text

section Joined

variable {mark : Char} {cut : Char → Bool} {front back whole : List (List Char)}

theorem intercalate_append (filled : front ≠ []) (more : back ≠ []) :
    List.intercalate [mark] (front ++ back) =
      List.intercalate [mark] front ++ mark :: List.intercalate [mark] back := by
  induction front with
  | nil => exact absurd rfl filled
  | cons piece front ih =>
    cases front with
    | nil =>
      obtain ⟨next, rest, rfl⟩ := List.exists_cons_of_ne_nil more
      simp [List.intercalate_cons_cons]
    | cons next front =>
      have behind := ih (List.cons_ne_nil _ _)
      rw [List.cons_append] at behind
      rw [List.cons_append, List.cons_append, List.intercalate_cons_cons, behind,
        List.intercalate_cons_cons, List.append_assoc (piece ++ [mark])]

/-- What the first pieces make up is the beginning of what all of them do. -/
theorem intercalate_before (before : front <+: whole) :
    List.intercalate [mark] front <+: List.intercalate [mark] whole := by
  obtain ⟨back, rfl⟩ := before
  by_cases empty : front = []
  · rw [empty]
    exact List.nil_prefix
  by_cases last : back = []
  · exact ⟨[], by rw [last, List.append_nil, List.append_nil]⟩
  · rw [intercalate_append empty last]
    exact List.prefix_append _ _

/-- Pieces that hold no cut are found again between cuts. -/
theorem pieces_intercalate (cuts : cut mark = true) (filled : front ≠ [])
    (whole : ∀ piece ∈ front, ∀ c ∈ piece, cut c = false) :
    pieces cut (List.intercalate [mark] front) = front := by
  induction front with
  | nil => exact absurd rfl filled
  | cons piece front ih =>
    obtain ⟨here, later⟩ := List.forall_mem_cons.1 whole
    cases front with
    | nil => rw [List.intercalate_singleton, pieces_of_uncut here]
    | cons next front =>
      rw [List.intercalate_cons_cons, List.append_assoc, List.singleton_append, pieces_append cuts,
        pieces_of_uncut here, ih (List.cons_ne_nil _ _) later, List.singleton_append]

theorem mem_intercalate {c : Char} (member : c ∈ List.intercalate [mark] front) :
    c = mark ∨ ∃ piece ∈ front, c ∈ piece := by
  induction front with
  | nil => cases member
  | cons piece front ih =>
    cases front with
    | nil =>
      rw [List.intercalate_singleton] at member
      exact .inr ⟨piece, List.mem_cons_self, member⟩
    | cons next front =>
      rw [List.intercalate_cons_cons, List.append_assoc, List.singleton_append, List.mem_append,
        List.mem_cons] at member
      rcases member with here | between | later
      · exact .inr ⟨piece, List.mem_cons_self, here⟩
      · exact .inl between
      · rcases ih later with between | ⟨other, listed, inside⟩
        · exact .inl between
        · exact .inr ⟨other, List.mem_cons_of_mem _ listed, inside⟩

/-- A text has one piece more than it has cuts. -/
theorem length_pieces (text : List Char) : (pieces cut text).length = text.countP cut + 1 := by
  induction text with
  | nil => rfl
  | cons c rest ih =>
    rw [pieces]
    split
    next cuts => rw [List.length_cons, ih, List.countP_cons_of_pos cuts]
    next uncut => rw [List.length_modifyHead, ih, List.countP_cons_of_neg uncut]

end Joined

section Words

variable {s word : String} {text front back : List Char}

/-- The words of a text, as lists of characters. -/
def runs (text : List Char) : List (List Char) := (pieces isBlank text).filter (! ·.isEmpty)

theorem words_eq (s : String) : words s = (runs s.toList).map String.ofList := rfl

theorem runs_behind_blanks (blank : ∀ c ∈ front, isBlank c = true) : runs (front ++ text) = runs text := by
  induction front with
  | nil => rfl
  | cons c front ih =>
    obtain ⟨here, later⟩ := List.forall_mem_cons.1 blank
    rw [List.cons_append, runs, pieces, if_pos here, List.filter_cons_of_neg (by simp)]
    exact ih later

theorem runs_before_blanks (blank : ∀ c ∈ back, isBlank c = true) : runs (text ++ back) = runs text := by
  cases back with
  | nil => rw [List.append_nil]
  | cons mark back =>
    obtain ⟨here, later⟩ := List.forall_mem_cons.1 blank
    have nothing : runs back = [] := (List.append_nil back) ▸ runs_behind_blanks later
    rw [runs] at nothing
    rw [runs, pieces_append here, List.filter_append, nothing, List.append_nil]
    rfl

/-- A text without words is blank. -/
theorem blank_of_runs (empty : runs text = []) : ∀ c ∈ text, isBlank c = true := by
  induction text with
  | nil => exact List.forall_mem_nil _
  | cons c rest ih =>
    rw [runs, pieces] at empty
    split at empty
    next blank =>
      rw [List.filter_cons_of_neg (by simp)] at empty
      exact List.forall_mem_cons.2 ⟨blank, ih empty⟩
    next =>
      obtain ⟨piece, more, split⟩ := List.exists_cons_of_ne_nil (@pieces_ne_nil isBlank rest)
      rw [split, List.modifyHead_cons, List.filter_cons_of_pos (by simp)] at empty
      cases empty

theorem words_trim : words (trim s) = words s := by
  obtain ⟨front, back, same, before, behind⟩ := (isTrimmed_trim s).between
  rw [words_eq, words_eq, same, List.append_assoc, runs_behind_blanks before, runs_before_blanks behind]

theorem words_ne_nil (worded : ¬AllBlank s) : words s ≠ [] := by
  intro empty
  rw [words_eq, List.map_eq_nil_iff] at empty
  exact worded (blank_of_runs empty)

/-- A word is not empty and holds no blank. -/
structure IsWord (word : String) : Prop where
  filled : word.toList ≠ []
  whole : ∀ c ∈ word.toList, isBlank c = false

theorem isWord_of_mem_words (member : word ∈ words s) : IsWord word := by
  obtain ⟨piece, listed, rfl⟩ := List.mem_map.1 member
  obtain ⟨inside, filled⟩ := List.mem_filter.1 listed
  constructor
  · rw [String.toList_ofList]
    simpa using filled
  · rw [String.toList_ofList]
    exact (isPiece_of_mem_pieces inside).1

variable {list : List String}

/-- A text that words make up with a space between them. -/
theorem toList_joined (list : List String) :
    (" ".intercalate list).toList = List.intercalate [' '] (list.map String.toList) :=
  String.toList_intercalate

theorem pieces_joined (filled : list ≠ []) (all : ∀ word ∈ list, IsWord word) :
    pieces isBlank (" ".intercalate list).toList = list.map String.toList := by
  rw [toList_joined]
  apply pieces_intercalate (by decide) (by simpa using filled)
  intro piece member
  obtain ⟨word, listed, rfl⟩ := List.mem_map.1 member
  exact (all word listed).whole

/-- The only blanks between words are spaces. -/
theorem blank_joined (all : ∀ word ∈ list, IsWord word) {c : Char}
    (member : c ∈ (" ".intercalate list).toList) (blank : isBlank c = true) : c = ' ' := by
  rw [toList_joined] at member
  rcases mem_intercalate member with space | ⟨piece, listed, inside⟩
  · exact space
  · obtain ⟨word, among, rfl⟩ := List.mem_map.1 listed
    rw [(all word among).whole c inside] at blank
    cases blank

/-- What words make up starts as the first word does. -/
theorem head_joined (filled : list ≠ []) (all : ∀ word ∈ list, IsWord word) :
    ∃ c rest, (" ".intercalate list).toList = c :: rest ∧ isBlank c = false := by
  obtain ⟨word, others, rfl⟩ := List.exists_cons_of_ne_nil filled
  have here := all word List.mem_cons_self
  obtain ⟨c, rest, same⟩ := List.exists_cons_of_ne_nil here.filled
  have plain := here.whole c (same ▸ List.mem_cons_self)
  rw [toList_joined, List.map_cons, same]
  cases others with
  | nil => exact ⟨c, rest, List.intercalate_singleton, plain⟩
  | cons next others => exact ⟨c, _, List.intercalate_cons_cons, plain⟩

/-- A beginning of what words make up has at most as many words. -/
theorem length_words_le (filled : list ≠ []) (all : ∀ word ∈ list, IsWord word)
    (before : s.toList <+: (" ".intercalate list).toList) : (words s).length ≤ list.length :=
  calc (words s).length
    _ ≤ (pieces isBlank s.toList).length := by
      rw [words, List.length_map]
      exact List.length_filter_le _ _
    _ = s.toList.countP isBlank + 1 := length_pieces _
    _ ≤ (" ".intercalate list).toList.countP isBlank + 1 := Nat.add_le_add_right before.countP_le 1
    _ = (pieces isBlank (" ".intercalate list).toList).length := (length_pieces _).symm
    _ = list.length := by rw [pieces_joined filled all, List.length_map]

end Words

end TopicLint.Text
