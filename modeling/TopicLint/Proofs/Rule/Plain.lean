import Mathlib.Data.List.Infix
import TopicLint.Rule.Token

/-! The plain text of a source: what is left of it without a mark at its start, with each carriage return
and line break made one line break. The lines that the tokens are read from are those of the plain text,
although each line is looked at alone. -/

namespace TopicLint.Rule

/-- The pieces of a text that each end with their only line break, but for the last one. -/
inductive Divided : List (List Char) → Prop where
  | none : Divided []
  | last {line : List Char} (filled : line ≠ []) (unbroken : '\n' ∉ line) : Divided [line]
  | next {body : List Char} {lines : List (List Char)} (unbroken : '\n' ∉ body)
      (later : Divided lines) : Divided ((body ++ ['\n']) :: lines)

theorem flatten_lines (text : List Char) : (lines text).flatten = text := by
  fun_induction lines text with
  | case1 => rfl
  | case2 rest ih => rw [List.flatten_cons, ih]; rfl
  | case3 c rest inside nothing ih => rw [← ih, nothing]; rfl
  | case4 c rest inside line more found ih => rw [← ih, found]; rfl

theorem divided_lines (text : List Char) : Divided (lines text) := by
  fun_induction lines text with
  | case1 => exact .none
  | case2 rest ih => exact @Divided.next [] _ List.not_mem_nil ih
  | case3 c rest inside nothing ih =>
    exact .last (List.cons_ne_nil _ _) (by simpa using Ne.symm inside)
  | case4 c rest inside line more found ih =>
    rw [found] at ih
    cases ih with
    | last _ unbroken =>
      exact .last (List.cons_ne_nil _ _) (by simp [unbroken, Ne.symm inside])
    | next unbroken later =>
      exact @Divided.next (c :: _) _ (by simp [unbroken, Ne.symm inside]) later

/-- Two texts of the same pieces, joined by line breaks of two characters in one and of a single character
in the other. The pieces hold no more line breaks of two. -/
def Unified (text unified : List Char) : Prop :=
  ∃ pieces : List (List Char), (∀ piece ∈ pieces, ¬['\r', '\n'] <:+: piece) ∧
    text = List.intercalate ['\r', '\n'] pieces ∧ unified = List.intercalate ['\n'] pieces

/-- A text that is a source but for a mark at its start and for line breaks of two characters. -/
def IsPlainText (source : String) (text : List Char) : Prop :=
  ∃ body, (source.toList = '\uFEFF' :: body ∨ source.toList = body ∧ body.head? ≠ some '\uFEFF') ∧
    Unified body text

/-- A text with each line break of two characters made a single one. -/
def unifyLineBreaks : List Char → List Char
  | '\r' :: '\n' :: rest => '\n' :: unifyLineBreaks rest
  | c :: rest => c :: unifyLineBreaks rest
  | [] => []

/-- What the tokens of a source are cut from. -/
def plainText (source : String) : List Char := unifyLineBreaks (dropMark source.toList)

section Breaks

variable {c : Char} {text front rest : List Char}

theorem not_infix_of_unbroken (unbroken : '\n' ∉ text) : ¬['\r', '\n'] <:+: text := fun inside =>
  unbroken (inside.subset (List.mem_cons_of_mem _ List.mem_cons_self))

theorem unifyLineBreaks_cons (apart : ¬['\r', '\n'] <+: c :: rest) :
    unifyLineBreaks (c :: rest) = c :: unifyLineBreaks rest := by
  refine unifyLineBreaks.eq_2 c rest ?_
  rintro behind rfl rfl
  exact apart ⟨behind, rfl⟩

theorem unifyLineBreaks_of_plain (plain : ¬['\r', '\n'] <:+: text) : unifyLineBreaks text = text := by
  induction text with
  | nil => rfl
  | cons c rest ih =>
    rw [List.infix_cons_iff, not_or] at plain
    rw [unifyLineBreaks_cons plain.1, ih plain.2]

/-- The first line break of two characters is made one, and what is in front of it stays. -/
theorem unifyLineBreaks_return (plain : ¬['\r', '\n'] <:+: front) (rest : List Char) :
    unifyLineBreaks (front ++ '\r' :: '\n' :: rest) = front ++ '\n' :: unifyLineBreaks rest := by
  induction front with
  | nil => rfl
  | cons c more ih =>
    rw [List.infix_cons_iff, not_or] at plain
    rw [List.cons_append, unifyLineBreaks_cons, ih plain.2, List.cons_append]
    -- A line break of two characters does not begin in front of another one.
    cases more with
    | nil => simp
    | cons d more => simpa using plain.1

theorem unifyLineBreaks_intercalate {pieces : List (List Char)}
    (plain : ∀ piece ∈ pieces, ¬['\r', '\n'] <:+: piece) :
    unifyLineBreaks (List.intercalate ['\r', '\n'] pieces) = List.intercalate ['\n'] pieces := by
  induction pieces with
  | nil => rfl
  | cons piece more ih =>
    obtain ⟨here, later⟩ := List.forall_mem_cons.1 plain
    cases more with
    | nil => simpa using unifyLineBreaks_of_plain here
    | cons next more =>
      rw [List.intercalate_cons_cons, List.intercalate_cons_cons, List.append_assoc, List.append_assoc,
        List.cons_append, List.singleton_append, unifyLineBreaks_return here, ih later,
        List.singleton_append]

theorem intercalate_cons_head (joint : List Char) (c : Char) (piece : List Char)
    (more : List (List Char)) : List.intercalate joint ((c :: piece) :: more) =
      c :: List.intercalate joint (piece :: more) := by
  cases more with
  | nil => rfl
  | cons next more => rw [List.intercalate_cons_cons, List.intercalate_cons_cons]; rfl

/-- A text cut at its line breaks of two characters. -/
theorem exists_pieces (text : List Char) : ∃ piece more,
    (∀ one ∈ piece :: more, ¬['\r', '\n'] <:+: one) ∧
      text = List.intercalate ['\r', '\n'] (piece :: more) ∧
      unifyLineBreaks text = List.intercalate ['\n'] (piece :: more) := by
  fun_induction unifyLineBreaks text with
  | case1 rest ih =>
    obtain ⟨piece, more, plain, whole, joined⟩ := ih
    refine ⟨[], piece :: more, List.forall_mem_cons.2 ⟨by simp, plain⟩, ?_, ?_⟩
    · rw [List.intercalate_cons_cons, ← whole]
      rfl
    · rw [List.intercalate_cons_cons, joined]
      rfl
  | case2 c rest apart ih =>
    obtain ⟨piece, more, plain, whole, joined⟩ := ih
    obtain ⟨here, later⟩ := List.forall_mem_cons.1 plain
    refine ⟨c :: piece, more, List.forall_mem_cons.2 ⟨?_, later⟩, ?_, ?_⟩
    · rw [List.infix_cons_iff, not_or]
      refine ⟨fun starts => ?_, here⟩
      obtain ⟨same, behind, rfl⟩ := List.cons_prefix_cons.1 starts
      rw [List.singleton_append, intercalate_cons_head] at whole
      exact apart _ same.symm whole
    · rw [intercalate_cons_head, ← whole]
    · rw [intercalate_cons_head, joined]
  | case3 => exact ⟨[], [], by simp, rfl, rfl⟩

theorem unified_iff {unified : List Char} : Unified text unified ↔ unified = unifyLineBreaks text := by
  constructor
  · rintro ⟨pieces, plain, rfl, rfl⟩
    exact (unifyLineBreaks_intercalate plain).symm
  · rintro rfl
    obtain ⟨piece, more, plain, whole, joined⟩ := exists_pieces text
    exact ⟨piece :: more, plain, whole, joined⟩

theorem unifyLineBreaks_append {front : List Char} (unbroken : '\n' ∉ front)
    (whole : front.getLast? ≠ some '\r') (more : List Char) :
    unifyLineBreaks (front ++ more) = front ++ unifyLineBreaks more := by
  induction front with
  | nil => rfl
  | cons c rest ih =>
    rw [List.mem_cons, not_or] at unbroken
    cases rest with
    | nil =>
      have solid : c ≠ '\r' := fun same => whole (same ▸ rfl)
      rw [List.singleton_append,
        unifyLineBreaks_cons fun starts => solid (List.cons_prefix_cons.1 starts).1.symm]
      rfl
    | cons d rest =>
      have inside : d ≠ '\n' := fun same => unbroken.2 (same ▸ List.mem_cons_self)
      rw [List.cons_append, unifyLineBreaks_cons, ih unbroken.2 (by rwa [List.getLast?_cons_cons] at whole)]
      · rfl
      · intro starts
        have behind := (List.cons_prefix_cons.1 starts).2
        exact inside (List.cons_prefix_cons.1 behind).1.symm

/-- Dropping the carriage returns before line breaks changes each line for itself. -/
theorem lines_unifyLineBreaks (text : List Char) :
    lines (unifyLineBreaks text) = (lines text).map unifyLineBreaks := by
  fun_induction unifyLineBreaks text with
  | case1 rest ih => simp [lines, ih, unifyLineBreaks]
  | case2 c rest apart ih =>
    by_cases broken : c = '\n'
    · subst broken
      simp [lines, ih, unifyLineBreaks]
    · have whole := flatten_lines rest
      rw [lines, if_neg broken, lines, if_neg broken, ih]
      cases split : lines rest with
      | nil => simp [unifyLineBreaks]
      | cons line more =>
        rw [split] at whole
        show (c :: unifyLineBreaks line) :: _ = unifyLineBreaks (c :: line) :: _
        rw [unifyLineBreaks.eq_2]
        -- A line break at the start of the first line stands at the start of them all.
        rintro behind isReturn rfl
        exact apart _ isReturn whole.symm
  | case3 => rfl

end Breaks

section Sources

theorem dropMark_of_head? {text : List Char} (unmarked : text.head? ≠ some '\uFEFF') :
    dropMark text = text := by
  apply dropMark.eq_2
  rintro rest rfl
  exact unmarked rfl

/-- A source has one plain text. -/
theorem isPlainText_iff {source : String} {text : List Char} :
    IsPlainText source text ↔ text = plainText source := by
  constructor
  · rintro ⟨body, marked | ⟨whole, unmarked⟩, joined⟩
    · rw [plainText, marked]
      exact unified_iff.1 joined
    · rw [plainText, whole, dropMark_of_head? unmarked]
      exact unified_iff.1 joined
  · rintro rfl
    refine ⟨dropMark source.toList, ?_, unified_iff.2 rfl⟩
    by_cases marked : source.toList.head? = some '\uFEFF'
    · obtain ⟨body, whole⟩ := List.head?_eq_some_iff.1 marked
      rw [whole]
      exact .inl rfl
    · rw [dropMark_of_head? marked]
      exact .inr ⟨rfl, marked⟩

/-- Only one mark is dropped, and carriage returns that no line break follows stay. -/
example : plainText "\uFEFF\uFEFFa\r\r\n\rb\n" = "\uFEFFa\r\n\rb\n".toList := by decide

theorem unifyLineBreak_break {body : List Char} (unbroken : '\n' ∉ body) :
    unifyLineBreak (body ++ ['\n']) = unifyLineBreaks (body ++ ['\n']) := by
  by_cases returns : body.getLast? = some '\r'
  · obtain ⟨front, rfl⟩ := List.getLast?_eq_some_iff.1 returns
    have plain : ¬['\r', '\n'] <:+: front :=
      not_infix_of_unbroken fun member => unbroken (List.mem_append_left _ member)
    have ends : ['\r', '\n'].isSuffixOf (front ++ ['\r', '\n']) = true :=
      List.isSuffixOf_iff_suffix.2 (List.suffix_append _ _)
    rw [List.append_assoc, List.singleton_append, unifyLineBreaks_return plain, unifyLineBreak, if_pos ends]
    simp [unifyLineBreaks]
  · have apart : ¬['\r', '\n'].isSuffixOf (body ++ ['\n']) = true := by
      rw [List.isSuffixOf_iff_suffix]
      rintro ⟨front, split⟩
      obtain rfl : front ++ ['\r'] = body :=
        List.append_cancel_right ((List.append_assoc ..).trans split)
      exact returns List.getLast?_concat
    rw [unifyLineBreak, if_neg apart, unifyLineBreaks_append unbroken returns]
    rfl

/-- Line breaks are made single ones line by line just as they are in the text as a whole. -/
theorem map_unifyLineBreak {texts : List (List Char)} (divided : Divided texts) :
    texts.map unifyLineBreak = texts.map unifyLineBreaks := by
  induction divided with
  | none => rfl
  | @last line _ unbroken =>
    have plain := not_infix_of_unbroken unbroken
    have apart : ¬['\r', '\n'].isSuffixOf line = true := fun ends =>
      plain (List.isSuffixOf_iff_suffix.1 ends).isInfix
    rw [List.map_singleton, List.map_singleton, unifyLineBreak, if_neg apart, unifyLineBreaks_of_plain plain]
  | next unbroken later ih => rw [List.map_cons, List.map_cons, unifyLineBreak_break unbroken, ih]

/-- The lines that the tokens are read from are those of the plain text. -/
theorem sourceLines_eq (source : String) : sourceLines source = lines (plainText source) := by
  rw [sourceLines, plainText, lines_unifyLineBreaks, map_unifyLineBreak (divided_lines _)]

theorem divided_sourceLines (source : String) : Divided (sourceLines source) :=
  sourceLines_eq source ▸ divided_lines _

theorem bodyTokens_eq (source : String) : bodyTokens source = scanLines 1 (lines (plainText source)) :=
  congrArg (scanLines 1) (sourceLines_eq source)

end Sources

end TopicLint.Rule
