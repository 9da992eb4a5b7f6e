import TopicLint.Files.Wildcard

/-! What patterns of names match. A pattern matches a name that can be cut into parts that the parts of
the pattern cover. A text without wildcards is a pattern that matches itself, and behind a star it
matches the names that end in it. -/

namespace TopicLint.Wildcard

/-- Whether a part of a pattern can stand for a part of a name. -/
def Part.covers : Part → List Char → Prop
  | char c, text => text = [c]
  | any, text => ∃ c, text = [c]
  | many, _ | deep, _ => True
  | oneOf negated ranges, text => ∃ c, text = [c] ∧ (inRanges ranges c != negated) = true

/-- A text that can be cut into parts that the parts of a pattern cover. -/
def Fits : List Part → List Char → Prop
  | [], text => text = []
  | part :: rest, text => ∃ front behind, text = front ++ behind ∧ part.covers front ∧ Fits rest behind

section Matching

variable {name : List Char} {places : Text.Places} {reached : Bool} {i : Nat}

theorem length_spread (reached : Bool) (places : Text.Places) :
    (Text.Places.spread reached places).length = places.length := by
  induction places generalizing reached with
  | nil => rfl
  | cons place rest ih => rw [Text.Places.spread, List.length_cons, ih, List.length_cons]

theorem length_step (fine : Char → Bool) (counted : places.length = name.length + 1) :
    (places.step fine name).length = name.length + 1 := by
  rw [Text.Places.step, List.length_cons, List.length_zipWith]
  omega

/-- There is a place behind each character of a name, and one before them. -/
theorem length_follow (part : Part) (counted : places.length = name.length + 1) :
    (part.follow name places).length = name.length + 1 := by
  cases part with
  | many => exact (length_spread false places).trans counted
  | deep => exact (length_spread false places).trans counted
  | char => exact length_step _ counted
  | any => exact length_step _ counted
  | oneOf => exact length_step _ counted

theorem length_followAll (parts : List Part) (counted : places.length = name.length + 1) :
    (parts.foldl (Part.follow name) places).length = name.length + 1 := by
  induction parts generalizing places with
  | nil => exact counted
  | cons part rest ih => exact ih (length_follow part counted)

theorem getElem?_step {fine : Char → Bool} : (places.step fine name)[i]? = some true ↔
    ∃ j c, i = j + 1 ∧ places[j]? = some true ∧ name[j]? = some c ∧ fine c = true := by
  cases i with
  | zero => simp [Text.Places.step]
  | succ j =>
    rw [Text.Places.step, List.getElem?_cons_succ, List.getElem?_zipWith]
    simp only [Nat.add_right_cancel_iff, exists_and_left, exists_eq_left']
    cases places[j]? with
    | none => simp
    | some place => cases name[j]? <;> cases place <;> simp

theorem getElem?_spread : (places.spread reached)[i]? = some true ↔
    i < places.length ∧ (reached = true ∨ ∃ j ≤ i, places[j]? = some true) := by
  induction places generalizing reached i with
  | nil => simp [Text.Places.spread]
  | cons place rest ih =>
    cases i with
    | zero => simp [Text.Places.spread]
    | succ i =>
      rw [Text.Places.spread, List.getElem?_cons_succ, ih, List.length_cons, Nat.succ_lt_succ_iff]
      refine and_congr_right fun _ => ?_
      rw [Bool.or_eq_true, or_assoc]
      refine or_congr_right ?_
      constructor
      · rintro (here | ⟨j, near, there⟩)
        · exact ⟨0, Nat.zero_le _, congrArg some here⟩
        · exact ⟨j + 1, Nat.succ_le_succ near, there⟩
      · rintro ⟨j, near, there⟩
        cases j with
        | zero => exact .inl (Option.some.inj there)
        | succ j => exact .inr ⟨j, Nat.le_of_succ_le_succ near, there⟩

theorem drop_eq_cons_iff {c : Char} {behind : List Char} :
    name.drop i = c :: behind ↔ name[i]? = some c ∧ name.drop (i + 1) = behind := by
  constructor
  · intro same
    rw [← List.tail_drop, same, ← List.head?_drop, same]
    exact ⟨rfl, rfl⟩
  · rintro ⟨here, rfl⟩
    obtain ⟨inside, rfl⟩ := List.getElem?_eq_some_iff.1 here
    exact List.drop_eq_getElem_cons inside

/-- The places behind a part are those that it leads to from the places before it. -/
theorem exists_follow_iff (part : Part) (counted : places.length = name.length + 1)
    (ends : List Char → Prop) :
    (∃ i, (part.follow name places)[i]? = some true ∧ ends (name.drop i)) ↔
      ∃ i, places[i]? = some true ∧ ∃ front behind, name.drop i = front ++ behind ∧
        part.covers front ∧ ends behind := by
  have single (fine : Char → Bool) : (∃ i, (places.step fine name)[i]? = some true ∧ ends (name.drop i)) ↔
      ∃ i, places[i]? = some true ∧ ∃ front behind, name.drop i = front ++ behind ∧
        (∃ c, front = [c] ∧ fine c = true) ∧ ends behind := by
    simp only [getElem?_step]
    constructor
    · rintro ⟨_, ⟨i, c, rfl, before, here, fits⟩, behind⟩
      exact ⟨i, before, [c], _, drop_eq_cons_iff.2 ⟨here, rfl⟩, ⟨c, rfl, fits⟩, behind⟩
    · rintro ⟨i, before, _, behind, split, ⟨c, rfl, fits⟩, rest⟩
      obtain ⟨here, rfl⟩ := drop_eq_cons_iff.1 split
      exact ⟨i + 1, ⟨i, c, rfl, before, here, fits⟩, rest⟩
  have several : (∃ i, (places.spread false)[i]? = some true ∧ ends (name.drop i)) ↔
      ∃ i, places[i]? = some true ∧ ∃ front behind, name.drop i = front ++ behind ∧
        True ∧ ends behind := by
    simp only [getElem?_spread]
    constructor
    · rintro ⟨i, ⟨-, later | ⟨j, near, before⟩⟩, behind⟩
      · cases later
      have split := List.take_append_drop (i - j) (name.drop j)
      rw [List.drop_drop, Nat.add_sub_cancel' near] at split
      exact ⟨j, before, _, _, split.symm, trivial, behind⟩
    · rintro ⟨j, before, front, behind, split, -, rest⟩
      have inside : j < places.length := (List.getElem?_eq_some_iff.1 before).1
      have long := congrArg List.length split
      rw [List.length_drop, List.length_append] at long
      refine ⟨j + front.length, ⟨by omega, .inr ⟨j, Nat.le_add_right _ _, before⟩⟩, ?_⟩
      rwa [← List.drop_drop, split, List.drop_left]
  cases part with
  | char c =>
    refine (single (· == c)).trans ?_
    simp [Part.covers]
  | any =>
    refine (single fun _ => true).trans ?_
    simp [Part.covers]
  | many => exact several
  | deep => exact several
  | oneOf negated ranges => exact single _

theorem exists_followAll_iff (parts : List Part) (counted : places.length = name.length + 1) :
    (parts.foldl (Part.follow name) places)[name.length]? = some true ↔
      ∃ i, places[i]? = some true ∧ Fits parts (name.drop i) := by
  induction parts generalizing places with
  | nil =>
    constructor
    · exact fun last => ⟨name.length, last, List.drop_length⟩
    · rintro ⟨i, there, nothing⟩
      have inside := (List.getElem?_eq_some_iff.1 there).1
      have long := List.drop_eq_nil_iff.1 nothing
      rwa [show name.length = i by omega]
  | cons part rest ih =>
    exact (ih (length_follow part counted)).trans (exists_follow_iff part counted (Fits rest))

/-- A pattern matches the names that can be cut as the pattern says. -/
theorem isMatch_iff {parts : List Part} {name : String} :
    isMatch parts name = true ↔ Fits parts name.toList := by
  have counted : (Text.Places.start name.toList).length = name.toList.length + 1 := by
    simp [Text.Places.start]
  rw [isMatch, Text.Places.atEnd, beq_iff_eq, List.getLast?_eq_getElem?, length_followAll parts counted,
    Nat.add_sub_cancel, exists_followAll_iff parts counted]
  constructor
  · rintro ⟨i, there, fits⟩
    cases i with
    | zero => exact fits
    | succ i =>
      rw [Text.Places.start, List.getElem?_cons_succ, List.getElem?_map, Option.map_eq_some_iff] at there
      obtain ⟨_, -, no⟩ := there
      cases no
  · exact fun fits => ⟨0, rfl, fits⟩

/-- A text that fits a pattern ends as the pattern does. -/
theorem ends_of_fits {parts : List Part} {c : Char} {text : List Char}
    (fits : Fits (parts ++ [.char c]) text) : ∃ front, text = front ++ [c] := by
  induction parts generalizing text with
  | nil =>
    obtain ⟨_, _, rfl, rfl, rfl⟩ := fits
    exact ⟨[], rfl⟩
  | cons part rest ih =>
    obtain ⟨front, behind, rfl, -, fits⟩ := fits
    obtain ⟨left, rfl⟩ := ih fits
    exact ⟨front ++ left, (List.append_assoc ..).symm⟩

theorem ends_of_isMatch {parts : List Part} {c : Char} {name : String}
    (matched : isMatch (parts ++ [.char c]) name = true) : ∃ front, name.toList = front ++ [c] :=
  ends_of_fits (isMatch_iff.1 matched)

end Matching

section Plain

variable {word text front rest : List Char} {fresh : Bool}

/-- Whether a character stands for itself in patterns. -/
def isPlain (c : Char) : Bool := c != '?' && c != '*' && c != '['

theorem fits_chars : Fits (word.map .char) text ↔ text = word := by
  induction word generalizing text with
  | nil => exact Iff.rfl
  | cons c word ih => simp [Fits, Part.covers, ih]

/-- Behind a star, a word matches the names that end in it. -/
theorem isMatch_ending {name : String} :
    isMatch (.many :: word.map .char) name = true ↔ word <:+ name.toList := by
  simp only [isMatch_iff, Fits, Part.covers, fits_chars, true_and]
  constructor
  · rintro ⟨front, _, split, rfl⟩
    exact ⟨front, split.symm⟩
  · rintro ⟨front, split⟩
    exact ⟨front, word, split.symm, rfl⟩

theorem literal?_chars (word : List Char) : literal? (word.map .char) = some word := by
  induction word with
  | nil => rfl
  | cons c word ih => rw [List.map_cons, literal?, ih, Option.map_some]

theorem readFrom_cons {c : Char} (plain : isPlain c = true) :
    readFrom fresh (c :: rest) = (readFrom (c = '/') rest).map (.char c :: ·) := by
  simp only [isPlain, Bool.and_eq_true, bne_iff_ne] at plain
  obtain ⟨⟨one, many⟩, bracket⟩ := plain
  rw [readFrom.eq_def]
  split <;> simp_all

theorem readFrom_plain (plain : ∀ c ∈ word, isPlain c = true) :
    readFrom fresh word = some (word.map .char) := by
  induction word generalizing fresh with
  | nil => rw [readFrom.eq_def]; rfl
  | cons c word ih =>
    obtain ⟨here, later⟩ := List.forall_mem_cons.1 plain
    rw [readFrom_cons here, ih later, Option.map_some, List.map_cons]

theorem readFrom_star (plain : ∀ c ∈ word, isPlain c = true) :
    readFrom fresh ('*' :: word) = some (.many :: word.map .char) := by
  have single (rest : List Char) (same : word = '*' :: rest) : False := by
    have star := plain '*' (same ▸ List.mem_cons_self)
    cases star
  rw [readFrom.eq_6 fresh word single, readFrom_plain plain, Option.map_some]

/-- What can be read behind plain characters can be read with them. -/
theorem exists_readFrom (plain : ∀ c ∈ front, isPlain c = true)
    (read : ∀ fresh, ∃ parts, readFrom fresh rest = some parts) (fresh : Bool) :
    ∃ parts, readFrom fresh (front ++ rest) = some parts := by
  induction front generalizing fresh with
  | nil => exact read fresh
  | cons c front ih =>
    obtain ⟨here, later⟩ := List.forall_mem_cons.1 plain
    obtain ⟨parts, same⟩ := ih later (c = '/')
    exact ⟨.char c :: parts, by rw [List.cons_append, readFrom_cons here, same, Option.map_some]⟩

end Plain

end TopicLint.Wildcard
