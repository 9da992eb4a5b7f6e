import TopicLint.Proofs.Rule.Message
import TopicLint.Proofs.Rule.Restated

/-! Quoted texts. A text is read back from its quoted form, and the quoted form is a single token unless
the text holds a double quote. So the texts that rules look for are those without a double quote. -/

namespace TopicLint.Rule

/-- The texts that a check looks for. Tags and names are none of them. -/
def Check.texts : Check → List String
  | .contains _ text | .ownText _ text | .ends _ text | .begins _ text
  | .attributeEquals _ _ text | .attributeContains _ _ text | .attributeEnds _ _ text => [text]
  | .present _ | .style _ | .empty _ | .position .. | .first _ | .last _ | .padding _
  | .hasAttribute .. | .namesVariable _ => []

def Question.texts : Question → List String
  | .snippet source => [source]
  | .along _ check => check.texts
  | .condition _ | .fail | .language _ => []

/-- The texts that the predicates of an expression look for. -/
def Expression.texts (expression : Expression) : List String :=
  expression.lines.flatten.flatMap fun predicate => predicate.question.texts

/-- Whether a text can be written in some rule file as one to look for. -/
def Expressible (text : String) : Prop :=
  ∃ file source rule, compile file source = .ok rule ∧ text ∈ rule.condition.texts ++ rule.test.texts

section Tokens

variable {text : String}

theorem quote_mem_escape_iff {text : List Char} : '"' ∈ Quoted.escape text ↔ '"' ∈ text := by
  fun_induction Quoted.escape text with
  | case1 => rfl
  | case2 rest ih => simpa using ih
  | case3 rest ih => simpa using ih
  | case4 c rest _ _ ih => rw [List.mem_cons, List.mem_cons, ih]

/-- The quoted form of a text is allowed as a quote just if no double quote ends it too early. -/
theorem allows_quote_iff : Kind.quote.Allows (Quoted.quote text).toList ↔ '"' ∉ text.toList := by
  rw [Quoted.toList_quote]
  constructor
  · intro allowed
    rw [← quote_mem_escape_iff]
    generalize written : '"' :: (Quoted.escape text.toList ++ ['"']) = characters at allowed
    cases allowed with
    | quote good =>
      obtain rfl := List.append_cancel_right (List.cons.inj written).2
      exact fun member => (good _ member).1 rfl
  · exact fun plain => .quote (Quoted.good_of_mem_escape plain)

/-- No class before that of quotes has texts that start with a double quote. -/
theorem chosen_quote {start : Bool} {written : List Char} (allows : Kind.quote.Allows written) :
    Chosen start written ⟨.quote, written⟩ where
  fits := ⟨List.prefix_refl _, .allowed allows, Kind.noConfusion⟩
  first earlier before other fits := by
    obtain ⟨c, rest, rfl⟩ := List.exists_cons_of_ne_nil (Kind.Matches.allowed allows).ne_nil
    obtain ⟨d, inside, rfl⟩ := List.exists_cons_of_ne_nil fits.matched.ne_nil
    obtain ⟨more, split⟩ := fits.front
    obtain ⟨rfl, -⟩ := List.cons.inj split
    have named := (header_of_earlier (by decide) (starts_of_matches (.allowed allows)) before
      (starts_of_matches fits.matched)).2
    cases named
  preferred := by
    have ended : Apart [] := by simp [Apart]
    have taken := extent_word start (by decide) allows ended
    rw [List.append_nil] at taken
    exact prefers_of_extent taken

theorem Chosen.scans {start : Bool} {kind : Kind} {written : List Char}
    (chosen : Chosen start written ⟨kind, written⟩) :
    Scans start written [⟨kind, written⟩] (kind == .newline) [] := by
  have whole := @Scans.next start _ kind written [] [] [] (by rwa [List.append_nil]) .done
  rwa [List.append_nil] at whole

theorem newline_notMem_quote (text : String) : '\n' ∉ (Quoted.quote text).toList := by
  have unbroken : '\n' ∉ Quoted.escape text.toList := by
    fun_induction Quoted.escape text.toList with
    | case1 => exact List.not_mem_nil
    | case2 rest ih => simpa using ih
    | case3 rest ih => simpa using ih
    | case4 c rest _ unbroken ih => simpa [Ne.symm unbroken] using ih
  simp [Quoted.toList_quote, unbroken]

/-- A quoted form is one line, which is read as it is written. -/
theorem plainText_quote (text : String) : plainText (Quoted.quote text) = (Quoted.quote text).toList := by
  have unmarked : dropMark (Quoted.quote text).toList = (Quoted.quote text).toList := by
    rw [Quoted.toList_quote]
    rfl
  have last : (Quoted.quote text).toList.getLast? ≠ some '\r' := by
    rw [Quoted.toList_quote, ← List.cons_append, List.getLast?_concat]
    decide
  have unified := unifyLineBreaks_append (newline_notMem_quote text) last []
  simp only [List.append_nil, unifyLineBreaks] at unified
  rw [plainText, unmarked, unified]

theorem sourceLines_quote (text : String) :
    sourceLines (Quoted.quote text) = [(Quoted.quote text).toList] := by
  have filled : (Quoted.quote text).toList ≠ [] := by
    rw [Quoted.toList_quote]
    exact List.cons_ne_nil _ _
  have whole := lines_append (newline_notMem_quote text) filled []
  rw [List.append_nil] at whole
  rw [sourceLines_eq, plainText_quote, whole]
  simp [lines]

theorem bodyTokens_quote (plain : '"' ∉ text.toList) :
    bodyTokens (Quoted.quote text) = [⟨.quote, Quoted.quote text, 1, 1⟩] := by
  have scans : Scans true (plainText (Quoted.quote text)) [⟨.quote, (Quoted.quote text).toList⟩] false [] := by
    rw [plainText_quote]
    exact (chosen_quote (allows_quote_iff.2 plain)).scans
  obtain ⟨⟨kind, value, line, column⟩, single, lexeme⟩ :=
    List.map_eq_singleton_iff.1 (lexemes_bodyTokens_iff.2 ⟨false, scans⟩)
  obtain ⟨rfl, same⟩ := Lexeme.mk.inj lexeme
  obtain rfl := String.toList_inj.1 same
  -- The only token stands where the source starts.
  obtain ⟨rfl, rfl⟩ := @placed_bodyTokens _ [] [] _ single
  exact single

/-- The quoted form of a text is one token, unless the text holds a double quote. -/
theorem tokens_quote_iff : tokens (Quoted.quote text) =
    [⟨.quote, Quoted.quote text, 1, 1⟩, Token.ending 1] ↔ '"' ∉ text.toList := by
  have last : endToken (Quoted.quote text) = Token.ending 1 := by
    rw [endToken, sourceLines_quote]
    rfl
  rw [tokens, last]
  constructor
  · intro cut
    have member : ⟨.quote, Quoted.quote text, 1, 1⟩ ∈ bodyTokens (Quoted.quote text) := by
      rw [show bodyTokens (Quoted.quote text) = [_] from List.append_cancel_right cut]
      exact List.mem_singleton_self _
    exact allows_quote_iff.1 (allows_of_mem_bodyTokens member)
  · intro plain
    rw [bodyTokens_quote plain]
    rfl

end Tokens

section Texts

variable {tokens : List Token} {text : String}

theorem plain_of_isArguments {check : Check} (given : Grammar.IsArguments tokens check)
    (lexed : Lexed tokens) (member : text ∈ check.texts) : '"' ∉ text.toList := by
  cases check with
  | contains | ownText | ends | begins =>
    obtain ⟨a, b, rfl, -, quoted⟩ := given
    obtain rfl := List.mem_singleton.1 member
    exact quote_notMem_of_isQuote quoted (lexed b (by simp))
  | attributeEquals | attributeContains | attributeEnds =>
    obtain ⟨a, b, c, rfl, -, -, quoted⟩ := given
    obtain rfl := List.mem_singleton.1 member
    exact quote_notMem_of_isQuote quoted (lexed c (by simp))
  | present | style | empty | position | first | last | padding | hasAttribute | namesVariable =>
    cases member

theorem plain_of_asks {word : String} {question : Question} (asks : Grammar.Asks word tokens question)
    (lexed : Lexed tokens) (member : text ∈ question.texts) : '"' ∉ text.toList := by
  cases asks with
  | condition | fail | language => cases member
  | snippet quoted =>
    obtain rfl := List.mem_singleton.1 member
    exact quote_notMem_of_isQuote quoted (lexed _ List.mem_cons_self)
  | along _ given => exact plain_of_isArguments given lexed member

theorem plain_of_isTerm {predicate : Predicate} (isTerm : Grammar.IsTerm tokens predicate)
    (lexed : Lexed tokens) (member : text ∈ predicate.question.texts) : '"' ∉ text.toList := by
  cases isTerm with
  | plain asked =>
    cases asked with
    | ask _ asks => exact plain_of_asks asks lexed.tail member
  | negated _ asked =>
    cases asked with
    | ask _ asks => exact plain_of_asks asks lexed.tail.tail member

theorem plain_of_isLine {line : List Predicate} (isLine : Grammar.IsLine tokens line)
    (lexed : Lexed tokens) : ∀ predicate ∈ line, text ∈ predicate.question.texts → '"' ∉ text.toList := by
  induction isLine with
  | last isTerm =>
    intro predicate member
    obtain rfl := List.mem_singleton.1 member
    exact plain_of_isTerm isTerm lexed
  | joined isTerm _ _ ih =>
    obtain ⟨first, rest⟩ := lexed.split
    exact List.forall_mem_cons.2 ⟨plain_of_isTerm isTerm first, ih rest.tail⟩

theorem plain_of_areLines {lines : List (List Predicate)} (areLines : Grammar.AreLines tokens lines)
    (lexed : Lexed tokens) :
    ∀ predicate ∈ lines.flatten, text ∈ predicate.question.texts → '"' ∉ text.toList := by
  induction areLines with
  | none => exact fun _ member => nomatch member
  | next isLine _ ih =>
    obtain ⟨first, rest⟩ := lexed.split
    rw [List.flatten_cons]
    intro predicate member
    rcases List.mem_append.1 member with here | later
    · exact plain_of_isLine isLine first predicate here
    · exact ih rest predicate later

/-- An expression that some tokens state looks for no text with a double quote. -/
theorem Stated.plain {expression : Expression} (stated : Stated expression)
    (member : text ∈ expression.texts) : '"' ∉ text.toList := by
  obtain ⟨-, tokens, lexed, areLines⟩ := stated
  obtain ⟨predicate, within, found⟩ := List.mem_flatMap.1 member
  exact plain_of_areLines areLines lexed predicate within found

/-- A reference to a snippet can be asked for by any text without a double quote. -/
theorem stated_snippet (plain : '"' ∉ text.toList) :
    Stated ⟨[[⟨false, .snippet text⟩]]⟩ where
  filled := List.cons_ne_nil _ _
  stated := by
    let word : Token := ⟨.name, "snippet", 1, 1⟩
    let quoted : Token := ⟨.quote, Quoted.quote text, 1, 9⟩
    have isQuote : Grammar.IsQuote quoted text := ⟨rfl, Quoted.unquote_quote text⟩
    refine ⟨[word, quoted], ?_, ?_⟩
    · intro token member
      simp only [List.mem_cons, List.not_mem_nil, or_false] at member
      obtain rfl | rfl := member
      · have named : Kind.name.Allows "snippet".toList := allows_word (by decide)
        exact named
      · exact allows_quote_iff.2 plain
    · have isTerm : Grammar.IsTerm [word, quoted] ⟨false, .snippet text⟩ :=
        .plain (.ask rfl (.snippet isQuote))
      exact .next (.last isTerm) .none

/-- The texts that rule files can look for are those without a double quote. -/
theorem expressible_iff : Expressible text ↔ '"' ∉ text.toList := by
  constructor
  · rintro ⟨file, source, rule, compiled, member⟩
    obtain ⟨conditional, testing⟩ := stated_of_compile compiled
    rcases List.mem_append.1 member with here | there
    · exact conditional.plain here
    · exact testing.plain there
  · intro plain
    have stated := stated_snippet plain
    obtain ⟨rule, compiled, condition, -⟩ := compile_restated stated stated ""
    refine ⟨"", _, rule, compiled, List.mem_append_left _ ?_⟩
    rw [condition]
    exact List.mem_singleton_self text

end Texts

/-- Every text is read back from its quoted form. If it holds no double quote, and only then, its quoted
form is a single token, and some rule file can look for it. -/
theorem quotes_exactly (text : String) :
    Quoted.unquote (Quoted.quote text) = text ∧
    (tokens (Quoted.quote text) = [⟨.quote, Quoted.quote text, 1, 1⟩, Token.ending 1] ↔
      '"' ∉ text.toList) ∧
    (Expressible text ↔ '"' ∉ text.toList) :=
  ⟨Quoted.unquote_quote text, tokens_quote_iff, expressible_iff⟩

end TopicLint.Rule
