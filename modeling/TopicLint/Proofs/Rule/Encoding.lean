import TopicLint.Proofs.Rule.Cursor
import TopicLint.Proofs.Rule.Derivation
import TopicLint.Proofs.Rule.Place

/-! How a source is saved. Its tokens are those of its plain text, and they determine it; so it makes no
difference whether a mark stands at the start and which line breaks are used. -/

namespace TopicLint.Rule

/-- A text with a carriage return before each line break. -/
def withReturns (text : List Char) : List Char :=
  text.flatMap fun c => if c = '\n' then ['\r', '\n'] else [c]

/-- A source as an editor may save it: with or without a mark at its start, and with or without carriage
returns before its line breaks. -/
def saved (marked returns : Bool) (source : String) : String :=
  let text := if returns then withReturns source.toList else source.toList
  String.ofList (if marked then '\uFEFF' :: text else text)

section Sources

variable {one two : String}

theorem wording_bodyTokens (source : String) : wording (bodyTokens source) = plainText source := by
  rw [bodyTokens_eq, wording_scanLines 1 (divided_lines _), flatten_lines]

theorem sourceLines_eq_iff : sourceLines one = sourceLines two ↔ plainText one = plainText two := by
  rw [sourceLines_eq, sourceLines_eq]
  constructor
  · intro same
    calc plainText one = (lines (plainText one)).flatten := (flatten_lines _).symm
      _ = (lines (plainText two)).flatten := by rw [same]
      _ = plainText two := flatten_lines _
  · exact congrArg lines

theorem tokens_eq_split : tokens one = tokens two ↔
    bodyTokens one = bodyTokens two ∧ endToken one = endToken two := by
  constructor
  · intro same
    obtain ⟨body, last⟩ := List.append_inj' same rfl
    exact ⟨body, List.singleton_inj.1 last⟩
  · rintro ⟨body, last⟩
    rw [tokens, tokens, body, last]

/-- Two sources have the same tokens just if they have the same plain text. -/
theorem tokens_eq_iff : tokens one = tokens two ↔ plainText one = plainText two := by
  constructor
  · intro same
    rw [← wording_bodyTokens, ← wording_bodyTokens, (tokens_eq_split.1 same).1]
  · intro same
    have texts := sourceLines_eq_iff.2 same
    apply tokens_eq_split.2
    simp only [bodyTokens, endToken, texts, and_self]

/-- The compiler looks at nothing but the tokens. -/
theorem compile_congr (same : tokens one = tokens two) (file : String) :
    compile file one = compile file two := by
  obtain ⟨body, last⟩ := tokens_eq_split.1 same
  rw [compile, compile, body, last]

end Sources

section Saving

variable {text : List Char}

theorem unifyLineBreaks_withReturns (plain : '\r' ∉ text) : unifyLineBreaks (withReturns text) = text := by
  induction text with
  | nil => rfl
  | cons c rest ih =>
    rw [List.mem_cons, not_or] at plain
    have onward := ih plain.2
    unfold withReturns at onward ⊢
    rw [List.flatMap_cons]
    split
    next broken =>
      subst broken
      simp only [List.cons_append, List.nil_append, unifyLineBreaks, onward]
    next =>
      rw [List.singleton_append,
        unifyLineBreaks_cons fun starts => plain.1 (List.cons_prefix_cons.1 starts).1, onward]

theorem head?_withReturns (unmarked : text.head? ≠ some '\uFEFF') :
    (withReturns text).head? ≠ some '\uFEFF' := by
  cases text with
  | nil => exact unmarked
  | cons c rest =>
    rw [withReturns, List.flatMap_cons]
    split
    · simp
    · exact unmarked

theorem plainText_saved {source : String} (plain : '\r' ∉ source.toList)
    (unmarked : source.toList.head? ≠ some '\uFEFF') (marked returns : Bool) :
    plainText (saved marked returns source) = source.toList := by
  let text := if returns then withReturns source.toList else source.toList
  have unified : unifyLineBreaks text = source.toList := by
    cases returns with
    | false => exact unifyLineBreaks_of_plain fun inside => plain (inside.subset List.mem_cons_self)
    | true => exact unifyLineBreaks_withReturns plain
  have dropped : dropMark text = text := by
    cases returns with
    | false => exact dropMark_of_head? unmarked
    | true => exact dropMark_of_head? (head?_withReturns unmarked)
  rw [plainText, saved, String.toList_ofList]
  cases marked with
  | false => exact (congrArg unifyLineBreaks dropped).trans unified
  | true => exact unified

end Saving

/-- However a source is saved that holds no carriage returns and starts with no mark, it has the same
tokens, one by one as well, and so compiles to the same rule or fails with the same error. -/
theorem saved_alike {source : String} (plain : '\r' ∉ source.toList)
    (unmarked : source.toList.head? ≠ some '\uFEFF') (marked returns : Bool) :
    tokens (saved marked returns source) = tokens source ∧
      Reader.start (saved marked returns source) = Reader.start source ∧
      ∀ file, compile file (saved marked returns source) = compile file source := by
  have whole : plainText (saved marked returns source) = plainText source := by
    calc plainText (saved marked returns source) = source.toList := plainText_saved plain unmarked _ _
      _ = plainText (saved false false source) := (plainText_saved plain unmarked false false).symm
      _ = plainText source := by simp [saved]
  have same := tokens_eq_iff.2 whole
  refine ⟨same, ?_, compile_congr same⟩
  rw [Reader.start, Reader.start, sourceLines_eq_iff.2 whole]

/-- A rule file with a comment and a message of several lines, saved with a mark and carriage returns. -/
theorem saved_alike_lines :
    let source := "comment: one\n\"two\n\nrule: error\nextensions: htm\nwhen: self p\ntest: fail\nmessage: a\nb"
    saved true true source = "\uFEFFcomment: one\r\n\"two\r\n\r\nrule: error\r\nextensions: htm\r\n" ++
        "when: self p\r\ntest: fail\r\nmessage: a\r\nb" ∧
      tokens (saved true true source) = tokens source ∧
      compile "r.txt" (saved true true source) = .ok
        { source := "r.txt", description := some "one\n\"two", severity := .error, extensions := ["htm"]
          condition := ⟨[[⟨false, .along .self (.present "p")⟩]]⟩, test := ⟨[[⟨false, .fail⟩]]⟩
          message := "a\nb" } := by
  intro source
  have plain : '\r' ∉ source.toList := by decide +kernel
  have unmarked : source.toList.head? ≠ some '\uFEFF' := by decide +kernel
  obtain ⟨same, -, compiled⟩ := saved_alike plain unmarked true true
  refine ⟨by decide +kernel, same, (compiled "r.txt").trans ?_⟩
  decide +kernel

end TopicLint.Rule
