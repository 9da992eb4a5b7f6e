import TopicLint.Markup

/-! Writing the spans of a message again. Marks come back where they were, whether they enclosed a
span or stood for themselves, and so does all text between them; of the message only the backslashes
are lost that take the meaning of the character behind them away. -/

namespace TopicLint.Markup

/-- What a backslash in front of it makes stand for itself. -/
def Escapable (c : Char) : Prop := c = '*' ∨ c = '\x60' ∨ c = '\\'

/-- Drops the backslashes that escape something, from left to right. The character behind such a
backslash is kept and escapes nothing itself. -/
inductive Resolves : List Char → List Char → Prop where
  | nil : Resolves [] []
  | escape {c : Char} {rest resolved : List Char} (escapable : Escapable c)
      (behind : Resolves rest resolved) : Resolves ('\\' :: c :: rest) (c :: resolved)
  | keep {c : Char} {rest resolved : List Char}
      (idle : c = '\\' → ∀ next, rest.head? = some next → ¬ Escapable next)
      (behind : Resolves rest resolved) : Resolves (c :: rest) (c :: resolved)

section Glyphs

variable {c : Char} {text resolved : List Char}

theorem isEscapable_iff : isEscapable c = true ↔ Escapable c := by
  simp [isEscapable, isDelimiter, Escapable, or_assoc]

theorem isEscapable_of_isDelimiter (delimiter : isDelimiter c = true) : isEscapable c = true := by
  rw [isEscapable, delimiter, Bool.true_or]

theorem glyphs_escape (rest : List Char) (escapable : isEscapable c = true) :
    glyphs ('\\' :: c :: rest) = ⟨c, false⟩ :: glyphs rest := by
  rw [glyphs, if_pos escapable]

theorem glyphs_keep (rest : List Char)
    (idle : c = '\\' → ∀ next, rest.head? = some next → ¬ Escapable next) :
    glyphs (c :: rest) = ⟨c, isDelimiter c⟩ :: glyphs rest := by
  by_cases backslash : c = '\\'
  · subst backslash
    cases rest with
    | nil => rfl
    | cons next rest =>
      have unescaped : ¬ isEscapable next = true :=
        fun escapable => idle rfl next rfl (isEscapable_iff.1 escapable)
      rw [glyphs, if_neg unescaped]
      rfl
  · rw [glyphs]
    intro next more same
    exact absurd same backslash

theorem glyphs_of_resolves (resolves : Resolves text resolved) :
    (glyphs text).map (·.char) = resolved := by
  induction resolves with
  | nil => rfl
  | escape escapable _ ih =>
    rw [glyphs_escape _ (isEscapable_iff.2 escapable), List.map_cons, ih]
  | keep idle _ ih =>
    rw [glyphs_keep _ idle, List.map_cons, ih]

theorem resolves_glyphs (text : List Char) : Resolves text ((glyphs text).map (·.char)) := by
  fun_induction glyphs text with
  | case1 c rest escapable ih => exact .escape (isEscapable_iff.1 escapable) ih
  | case2 c rest unescaped ih =>
    refine .keep (fun _ next head escapable => ?_) ih
    cases head
    exact unescaped (isEscapable_iff.2 escapable)
  | case3 c rest bare ih =>
    refine .keep (fun backslash next head => ?_) ih
    cases rest with
    | nil => cases head
    | cons first more => exact (bare first more backslash rfl).elim
  | case4 => exact .nil

/-- Only a star or a backtick can be a mark. -/
theorem isDelimiter_of_isMark (text : List Char) :
    ∀ glyph ∈ glyphs text, glyph.isMark = true → isDelimiter glyph.char = true := by
  fun_induction glyphs text with
  | case1 c rest escapable ih =>
    exact List.forall_mem_cons.2 ⟨fun mark => absurd mark Bool.false_ne_true, ih⟩
  | case2 c rest unescaped ih =>
    exact List.forall_mem_cons.2 ⟨fun mark => absurd mark Bool.false_ne_true, ih⟩
  | case3 c rest bare ih => exact List.forall_mem_cons.2 ⟨id, ih⟩
  | case4 => exact List.forall_mem_nil _

end Glyphs

section Spans

variable {glyph : Glyph} {rest : List Glyph}

/-- A mark and what the next one equal to it encloses. -/
theorem take_findIdx_append (closed : rest.findIdx (· == glyph) < rest.length) :
    rest.take (rest.findIdx (· == glyph)) ++ glyph :: rest.drop (rest.findIdx (· == glyph) + 1) =
      rest := by
  have closing : rest[rest.findIdx (· == glyph)] = glyph := by
    simpa using List.findIdx_getElem (w := closed)
  have behind := List.drop_eq_getElem_cons closed
  rw [closing] at behind
  rw [← behind, List.take_append_drop]

theorem written_consPlain (c : Char) (spans : List Span) :
    (consPlain c spans).flatMap (·.written) = c :: spans.flatMap (·.written) := by
  unfold consPlain
  split <;> rfl

theorem written_styleOf {mark : Char} (delimiter : isDelimiter mark = true) (text : List Char) :
    (Span.mk (styleOf mark) text).written = mark :: text ++ [mark] := by
  have either : mark = '*' ∨ mark = '\x60' := by simpa [isDelimiter] using delimiter
  rcases either with rfl | rfl
  · rfl
  · rfl

/-- Grouping glyphs moves none of them. -/
theorem written_group {glyphs : List Glyph}
    (delimiters : ∀ glyph ∈ glyphs, glyph.isMark = true → isDelimiter glyph.char = true) :
    (group glyphs).flatMap (·.written) = glyphs.map (·.char) := by
  fun_induction group glyphs with
  | case1 => rfl
  | case2 glyph rest length encloses ih =>
    simp only [Bool.and_eq_true, decide_eq_true_eq] at encloses
    obtain ⟨⟨mark, filled⟩, closed⟩ := encloses
    have split := take_findIdx_append closed
    have behind := ih fun other member => delimiters other
      (List.mem_cons_of_mem glyph (List.mem_of_mem_drop member))
    have delimiter := delimiters glyph List.mem_cons_self mark
    calc
      _ = glyph.char :: (rest.take length).map (·.char) ++ [glyph.char] ++
            (rest.drop (length + 1)).map (·.char) := by
        rw [List.flatMap_cons, behind, written_styleOf delimiter]
      _ = glyph.char :: (rest.take length ++ glyph :: rest.drop (length + 1)).map (·.char) := by
        simp
      _ = _ := by rw [split, List.map_cons]
  | case3 glyph rest length _ ih =>
    rw [written_consPlain, List.map_cons,
      ih fun other member => delimiters other (List.mem_cons_of_mem glyph member)]

theorem toSource_parse_toList (message : String) :
    (toSource (parse message)).toList = (glyphs message.toList).map (·.char) := by
  rw [toSource, String.toList_ofList, parse]
  exact written_group (isDelimiter_of_isMark message.toList)

end Spans

/-- What is written for the spans of a message is the message without the backslashes that escape
something, and nothing else. -/
theorem toSource_parse_iff (message source : String) :
    toSource (parse message) = source ↔ Resolves message.toList source.toList := by
  rw [← String.toList_inj, toSource_parse_toList]
  constructor
  · intro same
    exact same ▸ resolves_glyphs message.toList
  · exact glyphs_of_resolves

end TopicLint.Markup
