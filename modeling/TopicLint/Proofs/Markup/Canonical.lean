import Mathlib.Data.List.Chain
import TopicLint.Proofs.Markup.Source

/-! The lists of spans that messages stand for. A message gives no empty span and no two plain spans in
a row, and every list of spans of that kind is given by a message: the one that writes the spans with
all stars, backticks and backslashes of their texts escaped. -/

namespace TopicLint.Markup

/-- Spans of which none is empty, and of which plain ones are kept apart by others. -/
structure Canonical (spans : List Span) : Prop where
  filled : ∀ span ∈ spans, span.text ≠ []
  apart : spans.IsChain fun first second => ¬ (first.style = .plain ∧ second.style = .plain)

/-- A text with a backslash in front of each character that could be taken for a mark or an escape. -/
def escape (text : List Char) : List Char :=
  text.flatMap fun c => if isEscapable c then ['\\', c] else [c]

/-- The message that writes spans with their marks, and their texts escaped. -/
def message (spans : List Span) : String :=
  toSource (spans.map fun span => { span with text := escape span.text })

namespace Canonical

variable {span : Span} {spans : List Span} {c : Char}

theorem nil : Canonical [] where
  filled _ member := nomatch member
  apart := List.isChain_nil

theorem tail (canonical : Canonical (span :: spans)) : Canonical spans where
  filled other member := canonical.filled other (List.mem_cons_of_mem span member)
  apart := canonical.apart.tail

/-- Behind a plain span comes none or one that is not plain. -/
theorem head_ne_plain (canonical : Canonical (span :: spans)) (plain : span.style = .plain) :
    ∀ next, spans.head? = some next → next.style ≠ .plain := by
  intro next head
  cases spans with
  | nil => cases head
  | cons first rest =>
    cases head
    exact fun also => (List.isChain_cons_cons.1 canonical.apart).1 ⟨plain, also⟩

theorem cons (canonical : Canonical spans) (filled : span.text ≠ [])
    (separate : span.style = .plain → ∀ next, spans.head? = some next → next.style ≠ .plain) :
    Canonical (span :: spans) where
  filled other member := by
    rcases List.mem_cons.1 member with rfl | later
    · exact filled
    · exact canonical.filled other later
  apart := by
    cases spans with
    | nil => exact List.isChain_singleton span
    | cons next rest =>
      refine List.isChain_cons_cons.2 ⟨fun both => ?_, canonical.apart⟩
      exact separate both.1 next rfl both.2

theorem consPlain (canonical : Canonical spans) (c : Char) : Canonical (consPlain c spans) := by
  unfold Markup.consPlain
  split
  next text rest =>
    have separate := canonical.head_ne_plain rfl
    exact canonical.tail.cons (List.cons_ne_nil c text) fun _ => separate
  next other =>
    refine canonical.cons (List.cons_ne_nil c []) fun _ next head plain => ?_
    obtain ⟨style, text⟩ := next
    cases spans with
    | nil => cases head
    | cons first rest =>
      cases head
      cases plain
      exact other text rest rfl

end Canonical

theorem styleOf_ne_plain (mark : Char) : styleOf mark ≠ .plain := by
  unfold styleOf
  split <;> simp

/-- Grouping makes no empty span, and joins plain text that meets plain text. -/
theorem canonical_group (glyphs : List Glyph) : Canonical (group glyphs) := by
  fun_induction group glyphs with
  | case1 => exact .nil
  | case2 glyph rest length encloses ih =>
    simp only [Bool.and_eq_true, decide_eq_true_eq] at encloses
    have filled : (rest.take length).map (·.char) ≠ [] := by
      intro nothing
      have none_taken := congrArg List.length nothing
      simp only [List.length_map, List.length_take, List.length_nil] at none_taken
      omega
    exact ih.cons filled fun plain => absurd plain (styleOf_ne_plain glyph.char)
  | case3 glyph rest length _ ih => exact ih.consPlain glyph.char

section Written

variable {text : List Char} {spans : List Span}

/-- A character that is no mark. -/
def literal (c : Char) : Glyph := ⟨c, false⟩

/-- The glyphs of which a span is made, its marks among them. -/
def Span.glyphs (span : Span) : List Glyph :=
  match span.style with
  | .plain => span.text.map literal
  | .bold => ⟨'*', true⟩ :: span.text.map literal ++ [⟨'*', true⟩]
  | .code => ⟨'\x60', true⟩ :: span.text.map literal ++ [⟨'\x60', true⟩]

/-- An escaped text is read as what it is, whatever stands behind it. -/
theorem glyphs_escape_append (text rest : List Char) :
    glyphs (escape text ++ rest) = text.map literal ++ glyphs rest := by
  induction text with
  | nil => rfl
  | cons c text ih =>
    have unfolded : escape (c :: text) =
        (if isEscapable c then ['\\', c] else [c]) ++ escape text := List.flatMap_cons
    rw [unfolded, List.append_assoc, List.map_cons, List.cons_append, ← ih]
    by_cases escapable : isEscapable c = true
    · rw [if_pos escapable]
      exact glyphs_escape _ escapable
    · have other : isDelimiter c = false := by
        cases delimiter : isDelimiter c with
        | false => rfl
        | true => exact absurd (isEscapable_of_isDelimiter delimiter) escapable
      rw [if_neg escapable, List.singleton_append, glyphs_keep, other]
      · rfl
      · rintro rfl
        exact absurd rfl escapable

theorem glyphs_mark {mark : Char} (delimiter : isDelimiter mark = true) (rest : List Char) :
    glyphs (mark :: rest) = ⟨mark, true⟩ :: glyphs rest := by
  rw [glyphs_keep, delimiter]
  rintro rfl
  cases delimiter

theorem glyphs_enclosed {mark : Char} (delimiter : isDelimiter mark = true) (text rest : List Char) :
    glyphs (mark :: escape text ++ [mark] ++ rest) =
      ⟨mark, true⟩ :: text.map literal ++ [⟨mark, true⟩] ++ glyphs rest := by
  have closing := glyphs_mark delimiter rest
  rw [List.cons_append, List.cons_append, glyphs_mark delimiter, List.append_assoc,
    glyphs_escape_append, List.singleton_append, closing]
  simp

theorem glyphs_written (span : Span) (rest : List Char) :
    glyphs (Span.written { span with text := escape span.text } ++ rest) = span.glyphs ++ glyphs rest := by
  obtain ⟨style, text⟩ := span
  cases style with
  | plain => exact glyphs_escape_append text rest
  | bold => exact glyphs_enclosed rfl text rest
  | code => exact glyphs_enclosed rfl text rest

theorem glyphs_message (spans : List Span) :
    glyphs (message spans).toList = spans.flatMap (·.glyphs) := by
  rw [message, toSource, String.toList_ofList, List.flatMap_map]
  induction spans with
  | nil => rfl
  | cons span rest ih => rw [List.flatMap_cons, List.flatMap_cons, glyphs_written, ih]

end Written

section Grouped

variable {text : List Char} {rest : List Glyph}

theorem group_literal (c : Char) (rest : List Glyph) :
    group (literal c :: rest) = consPlain c (group rest) := by
  rw [group]
  exact if_neg (by simp [literal])

/-- Plain text in front of a span that is not plain is a span of its own. -/
theorem group_plain (filled : text ≠ [])
    (separate : ∀ next, (group rest).head? = some next → next.style ≠ .plain) :
    group (text.map literal ++ rest) = ⟨.plain, text⟩ :: group rest := by
  -- Each character joins the span that the characters behind it make; the last one starts it.
  induction text with
  | nil => exact absurd rfl filled
  | cons c text ih =>
    rw [List.map_cons, List.cons_append, group_literal]
    cases text with
    | nil =>
      change consPlain c (group rest) = _
      unfold consPlain
      split
      next text spans same => exact absurd rfl (separate ⟨.plain, text⟩ (by rw [same]; rfl))
      next => rfl
    | cons second text =>
      rw [ih (List.cons_ne_nil second text)]
      rfl

/-- A mark and the next one equal to it make a span of the glyphs between them, if there are any. -/
theorem group_enclosed {mark : Glyph} {inner : List Glyph} (marks : mark.isMark = true)
    (filled : inner ≠ []) (unmarked : mark ∉ inner) (rest : List Glyph) :
    group (mark :: (inner ++ mark :: rest)) =
      ⟨styleOf mark.char, inner.map (·.char)⟩ :: group rest := by
  have missed : inner.findIdx (· == mark) = inner.length := by
    rw [List.findIdx_eq_length]
    intro glyph member
    exact beq_eq_false_iff_ne.2 fun same => unmarked (same ▸ member)
  have closing : (inner ++ mark :: rest).findIdx (· == mark) = inner.length := by
    rw [List.findIdx_append, missed, if_neg (Nat.lt_irrefl _), List.findIdx_cons, beq_self_eq_true,
      cond_true, Nat.zero_add]
  have long : 0 < inner.length := List.length_pos_iff.2 filled
  rw [group, closing]
  rw [if_pos (by simp [marks, long]), List.take_left, List.drop_length_add_append]
  rfl

/-- Between two marks that are alike, text without marks is a span. -/
theorem group_marked (mark : Char) (filled : text ≠ []) (rest : List Glyph) :
    group (⟨mark, true⟩ :: text.map literal ++ [⟨mark, true⟩] ++ rest) =
      ⟨styleOf mark, text⟩ :: group rest := by
  have chars : (text.map literal).map (·.char) = text := by
    rw [List.map_map]
    exact List.map_id text
  have unmarked : Glyph.mk mark true ∉ text.map literal := by
    simp [literal]
  rw [List.cons_append, List.cons_append, List.append_assoc, List.singleton_append,
    group_enclosed rfl (by simpa using filled) unmarked, chars]

theorem group_glyphs (span : Span) (filled : span.text ≠ []) (separate : span.style = .plain →
      ∀ next, (group rest).head? = some next → next.style ≠ .plain) :
    group (span.glyphs ++ rest) = span :: group rest := by
  obtain ⟨style, text⟩ := span
  cases style with
  | plain => exact group_plain filled (separate rfl)
  | bold => exact group_marked '*' filled rest
  | code => exact group_marked '\x60' filled rest

end Grouped

theorem parse_message {spans : List Span} (canonical : Canonical spans) :
    parse (message spans) = spans := by
  rw [parse, glyphs_message]
  induction spans with
  | nil => simp [group]
  | cons span rest ih =>
    have behind := ih canonical.tail
    have separate := canonical.head_ne_plain
    rw [List.flatMap_cons, group_glyphs span (canonical.filled span List.mem_cons_self), behind]
    rw [behind]
    exact separate

/-- The spans of messages are the canonical ones, and each list of them is what its own message
stands for. So every text can be shown in every style, if there is any. -/
theorem canonical_iff :
    (∀ spans, Canonical spans ↔ ∃ source, parse source = spans) ∧
    (∀ spans, Canonical spans ↔ parse (message spans) = spans) ∧
    ∀ style text, text ≠ [] ↔ parse (message [⟨style, text⟩]) = [⟨style, text⟩] := by
  have parsed (source : String) : Canonical (parse source) := canonical_group _
  have alone (style : Style) (text : List Char) : text ≠ [] ↔ Canonical [⟨style, text⟩] := by
    constructor
    · intro filled
      exact Canonical.nil.cons filled fun _ _ head => nomatch head
    · intro canonical
      exact canonical.filled _ List.mem_cons_self
  have own (spans : List Span) : Canonical spans ↔ parse (message spans) = spans := by
    constructor
    · exact parse_message
    · intro same
      exact same ▸ parsed (message spans)
  refine ⟨fun spans => ⟨fun canonical => ⟨message spans, parse_message canonical⟩, ?_⟩, own, ?_⟩
  · rintro ⟨source, rfl⟩
    exact parsed source
  · intro style text
    exact (alone style text).trans (own _)

end TopicLint.Markup
