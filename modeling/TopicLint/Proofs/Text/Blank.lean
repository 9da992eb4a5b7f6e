import Mathlib.Data.List.TakeWhile
import TopicLint.Text.Blank
import TopicLint.Text.Search

/-! Texts: what trimming leaves of them, what stands in the empty one, and the pieces that a text is cut
into. A piece stands between two cuts, or between a cut and an end of the text, and holds none. -/

namespace TopicLint.Text

section Trimming

variable {s : String}

theorem isEmpty_trimStart_iff : (trimStart s).isEmpty = true ↔ ∀ c ∈ s.toList, isBlank c = true := by
  rw [trimStart, String.isEmpty_iff, String.ofList_eq_empty_iff, List.dropWhile_eq_nil_iff]

theorem isEmpty_trimEnd_iff : (trimEnd s).isEmpty = true ↔ ∀ c ∈ s.toList, isBlank c = true := by
  rw [trimEnd, String.isEmpty_iff, String.ofList_eq_empty_iff, List.reverse_eq_nil_iff,
    List.dropWhile_eq_nil_iff]
  simp

/-- Nothing is left of a text by trimming if all of it is blank. -/
theorem isEmpty_trim_iff : (trim s).isEmpty = true ↔ ∀ c ∈ s.toList, isBlank c = true := by
  rw [trim, isEmpty_trimEnd_iff, trimStart, String.toList_ofList]
  constructor
  · intro rest c member
    rw [← List.takeWhile_append_dropWhile (p := isBlank) (l := s.toList)] at member
    rcases List.mem_append.1 member with front | behind
    · exact List.mem_takeWhile_imp front
    · exact rest c behind
  · intro all c member
    exact all c ((List.dropWhile_sublist _).subset member)

theorem trim_empty : trim "" = "" := rfl

/-- Whether a text holds nothing but blanks. -/
def AllBlank (s : String) : Prop := ∀ c ∈ s.toList, isBlank c = true

instance (s : String) : Decidable (AllBlank s) := inferInstanceAs (Decidable (∀ c ∈ s.toList, isBlank c = true))

/-- What is left of a text when the blanks at its ends are taken away. -/
structure IsTrimmed (s trimmed : String) : Prop where
  between : ∃ front back, s.toList = front ++ trimmed.toList ++ back ∧ (∀ c ∈ front, isBlank c = true) ∧
    ∀ c ∈ back, isBlank c = true
  first : ∀ c, trimmed.toList.head? = some c → isBlank c = false
  last : ∀ c, trimmed.toList.getLast? = some c → isBlank c = false

theorem isTrimmed_trim (s : String) : IsTrimmed s (trim s) := by
  have start : s.toList = s.toList.takeWhile isBlank ++ (trimStart s).toList := by
    rw [trimStart, String.toList_ofList, List.takeWhile_append_dropWhile]
  have stop : (trimStart s).toList = (trim s).toList ++
      ((trimStart s).toList.reverse.takeWhile isBlank).reverse := by
    rw [trim, trimEnd, String.toList_ofList, ← List.reverse_append, List.takeWhile_append_dropWhile,
      List.reverse_reverse]
  refine ⟨⟨s.toList.takeWhile isBlank, ((trimStart s).toList.reverse.takeWhile isBlank).reverse, ?_, ?_, ?_⟩,
    fun c head => ?_, fun c last => ?_⟩
  · rw [List.append_assoc, ← stop]
    exact start
  · exact fun c member => List.mem_takeWhile_imp member
  · exact fun c member => List.mem_takeWhile_imp (List.mem_reverse.1 member)
  · have first : (trimStart s).toList.head? = some c := by rw [stop, List.head?_append, head, Option.some_or]
    rw [trimStart, String.toList_ofList] at first
    have plain := List.head?_dropWhile_not isBlank s.toList
    rw [first] at plain
    simpa using plain
  · rw [trim, trimEnd, String.toList_ofList, List.getLast?_reverse] at last
    have plain := List.head?_dropWhile_not isBlank (trimStart s).toList.reverse
    rw [last] at plain
    simpa using plain

theorem IsTrimmed.eq_trim {trimmed : String} (isTrimmed : IsTrimmed s trimmed) : trimmed = trim s := by
  obtain ⟨⟨front, back, same, before, behind⟩, first, last⟩ := isTrimmed
  have dropped (text : List Char) (plain : ∀ c, text.head? = some c → isBlank c = false) :
      text.dropWhile isBlank = text := by
    cases text with
    | nil => rfl
    | cons c rest => rw [List.dropWhile_cons_of_neg (by simp [plain c rfl])]
  by_cases empty : trimmed.toList = []
  · -- A text of which nothing is left is blank.
    rw [empty, List.append_nil] at same
    have blank : (trim s).isEmpty = true := isEmpty_trim_iff.2 fun c member =>
      (List.mem_append.1 (same ▸ member)).elim (before c) (behind c)
    rw [String.isEmpty_iff.1 blank, ← String.toList_inj, empty]
    rfl
  · have start : (trimStart s).toList = trimmed.toList ++ back := by
      rw [trimStart, String.toList_ofList, same, List.append_assoc, List.dropWhile_append_of_pos before]
      refine dropped _ fun c head => first c ?_
      obtain ⟨d, rest, filled⟩ := List.exists_cons_of_ne_nil empty
      rw [filled] at head ⊢
      exact head
    rw [trim, trimEnd, start, List.reverse_append,
      List.dropWhile_append_of_pos fun c member => behind c (List.mem_reverse.1 member),
      dropped _ fun c head => last c (by rwa [List.head?_reverse] at head), List.reverse_reverse,
      String.ofList_toList]

theorem isTrimmed_iff {trimmed : String} : IsTrimmed s trimmed ↔ trimmed = trim s :=
  ⟨IsTrimmed.eq_trim, fun same => same ▸ isTrimmed_trim s⟩

end Trimming

section Empty

variable (part : String)

theorem contains_empty : contains "" part = part.isEmpty := by
  rw [contains, Bool.eq_iff_iff, String.isEmpty_iff]
  simp [occurs]

theorem startsWith_empty : startsWith "" part = part.isEmpty := by
  rw [startsWith, Bool.eq_iff_iff, String.isEmpty_iff]
  simp

theorem endsWith_empty : endsWith "" part = part.isEmpty := by
  rw [endsWith, Bool.eq_iff_iff, String.isEmpty_iff]
  simp

end Empty

section Pieces

variable {cut : Char → Bool}

theorem pieces_ne_nil (text : List Char) : pieces cut text ≠ [] := by
  cases text with
  | nil => exact List.cons_ne_nil _ _
  | cons c rest =>
    rw [pieces]
    split
    · exact List.cons_ne_nil _ _
    · rw [Ne, List.modifyHead_eq_nil_iff]
      exact pieces_ne_nil rest

theorem pieces_append {mark : Char} (cuts : cut mark = true) (front rest : List Char) :
    pieces cut (front ++ mark :: rest) = pieces cut front ++ pieces cut rest := by
  induction front with
  | nil => simp [pieces, cuts]
  | cons c front ih =>
    rw [List.cons_append, pieces, pieces, ih]
    split
    · rfl
    · obtain ⟨piece, more, split⟩ := List.exists_cons_of_ne_nil (@pieces_ne_nil cut front)
      rw [split]
      rfl

theorem pieces_of_uncut {word : List Char} (uncut : ∀ c ∈ word, cut c = false) :
    pieces cut word = [word] := by
  induction word with
  | nil => rfl
  | cons c rest ih =>
    rw [pieces, if_neg (by simp [uncut c]), ih fun d member => uncut d (List.mem_cons_of_mem c member)]
    rfl

/-- The last piece of a text ends where the text ends. -/
theorem exists_last_piece {c : Char} (uncut : cut c = false) (front : List Char) :
    ∃ before piece, pieces cut (front ++ [c]) = before ++ [piece ++ [c]] := by
  induction front with
  | nil => exact ⟨[], [], by simp [pieces, uncut]⟩
  | cons d front ih =>
    obtain ⟨before, piece, last⟩ := ih
    rw [List.cons_append, pieces, last]
    split
    · exact ⟨[] :: before, piece, rfl⟩
    · cases before with
      | nil => exact ⟨[], d :: piece, rfl⟩
      | cons first before => exact ⟨(d :: first) :: before, piece, rfl⟩

/-- A word that holds no cut and stands between cuts or ends of a text. -/
def IsPiece (cut : Char → Bool) (word text : List Char) : Prop :=
  (∀ c ∈ word, cut c = false) ∧ ∃ before after, text = before ++ word ++ after ∧
    (∀ c, before.getLast? = some c → cut c = true) ∧ (∀ c, after.head? = some c → cut c = true)

theorem mem_pieces_of_isPiece {word text : List Char} (piece : IsPiece cut word text) :
    word ∈ pieces cut text := by
  obtain ⟨uncut, before, after, rfl, left, right⟩ := piece
  have behind : word ∈ pieces cut (word ++ after) := by
    cases after with
    | nil => simp [pieces_of_uncut uncut]
    | cons mark after => simp [pieces_append (right mark rfl), pieces_of_uncut uncut]
  rw [List.append_assoc]
  obtain rfl | ⟨front, mark, same⟩ := List.eq_nil_or_concat before
  · exact behind
  · rw [List.concat_eq_append] at same
    subst same
    rw [List.append_assoc, List.singleton_append, pieces_append (left mark List.getLast?_concat)]
    exact List.mem_append_right _ behind

/-- A text without a cut, or the first cut of a text with what is in front of it and behind. -/
theorem exists_first_cut (cut : Char → Bool) (text : List Char) : (∀ c ∈ text, cut c = false) ∨
    ∃ front mark rest, text = front ++ mark :: rest ∧ (∀ c ∈ front, cut c = false) ∧ cut mark = true := by
  induction text with
  | nil => exact .inl fun c member => absurd member List.not_mem_nil
  | cons c text ih =>
    cases cuts : cut c with
    | true => exact .inr ⟨[], c, text, rfl, fun d member => absurd member List.not_mem_nil, cuts⟩
    | false =>
      rcases ih with uncut | ⟨front, mark, rest, rfl, uncut, ends⟩
      · exact .inl (List.forall_mem_cons.2 ⟨cuts, uncut⟩)
      · exact .inr ⟨c :: front, mark, rest, rfl, List.forall_mem_cons.2 ⟨cuts, uncut⟩, ends⟩

theorem isPiece_of_mem_pieces {word text : List Char} (member : word ∈ pieces cut text) :
    IsPiece cut word text := by
  -- The induction goes from one cut to the next.
  induction size : text.length using Nat.strongRecOn generalizing text with
  | ind size ih =>
    rcases exists_first_cut cut text with uncut | ⟨front, mark, rest, rfl, uncut, ends⟩
    · rw [pieces_of_uncut uncut, List.mem_singleton] at member
      subst member
      exact ⟨uncut, [], [], by simp, by simp, by simp⟩
    · rw [pieces_append ends, pieces_of_uncut uncut, List.singleton_append] at member
      rcases List.mem_cons.1 member with rfl | later
      · exact ⟨uncut, [], mark :: rest, rfl, by simp, by simpa using ends⟩
      · rw [List.length_append, List.length_cons] at size
        obtain ⟨whole, before, after, rfl, left, right⟩ := ih rest.length (by omega) later rfl
        refine ⟨whole, front ++ mark :: before, after, by simp, fun c last => ?_, right⟩
        rw [List.getLast?_append, List.getLast?_cons, Option.some_or] at last
        cases inner : before.getLast? with
        | none =>
          rw [inner] at last
          cases last
          exact ends
        | some d =>
          rw [inner] at last
          cases last
          exact left _ inner

/-- The pieces of a text are what stands in it between cuts and ends. -/
theorem mem_pieces_iff {word text : List Char} : word ∈ pieces cut text ↔ IsPiece cut word text :=
  ⟨isPiece_of_mem_pieces, mem_pieces_of_isPiece⟩

theorem mem_split_iff {word s : String} : word ∈ split cut s ↔ IsPiece cut word.toList s.toList := by
  rw [split, ← mem_pieces_iff, List.mem_map]
  constructor
  · rintro ⟨piece, member, rfl⟩
    rwa [String.toList_ofList]
  · intro member
    exact ⟨word.toList, member, String.ofList_toList⟩

end Pieces

end TopicLint.Text
