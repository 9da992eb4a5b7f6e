import TopicLint.Proofs.Rule.Spelling
import TopicLint.Proofs.Rule.Recognition

/-! What expressions are written as. Every phrase of the grammar has a meaning, the meaning has a
text, and the text is cut into a phrase with the same meaning. So the text of an expression that a
rule file states is a way to state it, in front of a blank or a line break. -/

namespace TopicLint.Rule

namespace Quoted

theorem resolve_cons {c : Char} (plain : c ≠ '\\') (rest : List Char) :
    resolve (c :: rest) = c :: resolve rest := by
  apply resolve.eq_3
  · intro _ same
    exact absurd same plain
  · intro _ same
    exact absurd same plain

theorem resolve_escape (text : List Char) : resolve (escape text) = text := by
  fun_induction escape text with
  | case1 => rfl
  | case2 rest ih => rw [resolve, ih]
  | case3 rest ih => rw [resolve, ih]
  | case4 c rest plain _ ih => rw [resolve_cons plain, ih]

theorem good_of_mem_escape {text : List Char} (plain : '"' ∉ text) :
    ∀ c ∈ escape text, c ≠ '"' ∧ c ≠ '\n' := by
  fun_induction escape text with
  | case1 => simp
  | case2 rest ih => simpa using ih (by simpa using plain)
  | case3 rest ih => simpa using ih (by simpa using plain)
  | case4 c rest _ unbroken ih =>
    rw [List.mem_cons, not_or] at plain
    intro d member
    rcases List.mem_cons.1 member with same | inside
    · exact same ▸ ⟨Ne.symm plain.1, unbroken⟩
    · exact ih plain.2 d inside

theorem quote_notMem_resolve {written : List Char} (plain : '"' ∉ written) :
    '"' ∉ resolve written := by
  fun_induction resolve written with
  | case1 rest ih => simpa using ih (by simpa using plain)
  | case2 rest ih => simpa using ih (by simpa using plain)
  | case3 c rest _ _ ih =>
    rw [List.mem_cons, not_or] at plain ⊢
    exact ⟨plain.1, ih plain.2⟩
  | case4 => exact plain

theorem inner_quote (body : List Char) : inner ('"' :: (body ++ ['"'])) = body := by
  simp [inner]

theorem toList_quote (text : String) : (quote text).toList = '"' :: (escape text.toList ++ ['"']) :=
  String.toList_ofList

/-- A text is read back from its quoted form. -/
theorem unquote_quote (text : String) : unquote (quote text) = text := by
  rw [unquote, toList_quote, inner_quote, resolve_escape, String.ofList_toList]

end Quoted

section Numbers

/-- A number is read back from its digits. -/
theorem decimal_toString (n : Nat) : Text.decimal (toString n).toList = n := by
  have read := @Nat.ofDigitChars_ten_toDigits n
  rw [Nat.ofDigitChars_eq_foldl] at read
  rw [Nat.toString_eq_repr, Nat.toList_repr]
  exact read

theorem allows_toString (n : Nat) : Kind.number.Allows (toString n).toList := by
  rw [Nat.toString_eq_repr, Nat.toList_repr]
  apply Kind.Allows.number Nat.toDigits_ne_nil
  intro c member
  exact Nat.isDigit_of_mem_toDigits (by decide) (by decide) member

end Numbers

section Words

theorem allows_word {c : Char} {rest : List Char}
    (good : (startsName c && rest.all continuesName) = true) : Kind.name.Allows (c :: rest) := by
  rw [Bool.and_eq_true, List.all_eq_true] at good
  exact .name good.1 good.2

theorem allows_header (letters : String)
    (good : (! letters.toList.isEmpty && letters.toList.all isLetter) = true) :
    Kind.header.Allows (letters.toList ++ [':']) := by
  rw [Bool.and_eq_true, List.all_eq_true] at good
  exact .header (by simpa using good.1) good.2

end Words

/-- A text that makes a phrase of tokens wherever it stands in front of a blank or a line break. -/
def Writes (start : Bool) (text : String) (phrase : List Token → Prop) : Prop :=
  ∃ lexemes, Spells start text lexemes ∧
    ∀ tokens : List Token, tokens.map Token.lexeme = lexemes → phrase tokens

/-- The phrases of a single token. -/
def Only (good : Token → Prop) (tokens : List Token) : Prop := ∃ token, tokens = [token] ∧ good token

/-- A phrase and another one behind it. -/
def Followed (first second : List Token → Prop) (tokens : List Token) : Prop :=
  ∃ one two, tokens = one ++ two ∧ first one ∧ second two

namespace Writes

variable {start : Bool} {text other : String} {first second phrase : List Token → Prop}

theorem imp (writes : Writes start text first) (weaker : ∀ tokens, first tokens → second tokens) :
    Writes start text second := by
  obtain ⟨lexemes, spells, read⟩ := writes
  exact ⟨lexemes, spells, fun tokens same => weaker tokens (read tokens same)⟩

theorem followed {lexemes others : List Lexeme}
    (read : ∀ tokens : List Token, tokens.map Token.lexeme = lexemes → first tokens)
    (read' : ∀ tokens : List Token, tokens.map Token.lexeme = others → second tokens) :
    ∀ tokens : List Token, tokens.map Token.lexeme = lexemes ++ others → Followed first second tokens := by
  intro tokens same
  obtain ⟨one, two, split, here, there⟩ := List.map_eq_append_iff.1 same
  exact ⟨one, two, split, read one here, read' two there⟩

theorem blank (writes : Writes start text first) (writes' : Writes false other second) :
    Writes start (text ++ " " ++ other) (Followed first second) := by
  obtain ⟨lexemes, spells, read⟩ := writes
  obtain ⟨others, spells', read'⟩ := writes'
  exact ⟨lexemes ++ others, spells.blank spells', followed read read'⟩

theorem newline (writes : Writes start text first) (writes' : Writes true other second) :
    Writes start (text ++ "\n" ++ other) (Followed first second) := by
  obtain ⟨lexemes, spells, read⟩ := writes
  obtain ⟨others, spells', read'⟩ := writes'
  exact ⟨lexemes ++ others, spells.newline spells', followed read read'⟩

/-- The only token of a word. -/
theorem single {kind : Kind} (word : kind ∈ Kind.words) (allows : kind.Allows text.toList)
    (plain : start = true → ':' ∉ text.toList)
    (reads : ∀ token : Token, token.kind = kind → token.value = text → phrase [token]) :
    Writes start text phrase := by
  refine ⟨[⟨kind, text.toList⟩], .word word allows plain, fun tokens same => ?_⟩
  obtain ⟨token, rfl, lexeme⟩ := List.map_eq_singleton_iff.1 same
  obtain ⟨kinds, texts⟩ := Lexeme.mk.inj lexeme
  exact reads token kinds (String.toList_inj.1 texts)

theorem header (allows : Kind.header.Allows text.toList) :
    Writes true text (Only (Grammar.IsHeader · text)) := by
  refine ⟨[⟨.header, text.toList⟩], .header allows, fun tokens same => ?_⟩
  obtain ⟨token, rfl, lexeme⟩ := List.map_eq_singleton_iff.1 same
  obtain ⟨kinds, texts⟩ := Lexeme.mk.inj lexeme
  exact ⟨token, rfl, kinds, String.toList_inj.1 texts⟩

end Writes

section Arguments

variable {start : Bool} {token : Token} {tokens : List Token}

theorem allows_of_isName {name : String} (named : Grammar.IsName token name)
    (lexed : token.kind.Allows token.value.toList) : Kind.name.Allows name.toList := by
  obtain ⟨kind, rfl⟩ := named
  exact kind ▸ lexed

theorem writes_name {name : String} (allows : Kind.name.Allows name.toList)
    (plain : start = true → ':' ∉ name.toList) :
    Writes start name (Only (Grammar.IsName · name)) :=
  .single (by decide) allows plain fun token kind value => ⟨token, rfl, kind, value⟩

theorem writes_tag {tag : String} (tagged : Grammar.IsTag token tag)
    (lexed : token.kind.Allows token.value.toList) : Writes false tag (Only (Grammar.IsTag · tag)) := by
  obtain ⟨named | wild, rfl⟩ := tagged
  · rw [named] at lexed
    exact .single (by decide) lexed Bool.noConfusion fun token kind value =>
      ⟨token, rfl, .inl kind, value⟩
  · rw [wild] at lexed
    exact .single (by decide) lexed Bool.noConfusion fun token kind value =>
      ⟨token, rfl, .inr kind, value⟩

theorem writes_number {n : Nat} (number : Grammar.IsNumber token n) :
    Writes false (toString n) (Only (Grammar.IsNumber · n)) := by
  apply Writes.single (by decide) (allows_toString n) Bool.noConfusion
  intro token kind value
  refine ⟨token, rfl, kind, ?_, number.2.2⟩
  rw [value, decimal_toString]

theorem quote_notMem_of_isQuote {text : String} (quoted : Grammar.IsQuote token text)
    (lexed : token.kind.Allows token.value.toList) : '"' ∉ text.toList := by
  obtain ⟨kind, rfl⟩ := quoted
  rw [kind] at lexed
  generalize written : token.value.toList = characters at lexed
  cases lexed with
  | quote good =>
    rw [Quoted.unquote, written, Quoted.inner_quote, String.toList_ofList]
    exact Quoted.quote_notMem_resolve fun member => (good _ member).1 rfl

theorem writes_quote {text : String} (quoted : Grammar.IsQuote token text)
    (lexed : token.kind.Allows token.value.toList) :
    Writes false (Quoted.quote text) (Only (Grammar.IsQuote · text)) := by
  have plain := quote_notMem_of_isQuote quoted lexed
  have allows : Kind.quote.Allows (Quoted.quote text).toList := by
    rw [Quoted.toList_quote]
    exact .quote (Quoted.good_of_mem_escape plain)
  apply Writes.single (by decide) allows Bool.noConfusion
  intro token kind value
  refine ⟨token, rfl, kind, ?_⟩
  rw [value, Quoted.unquote_quote]

theorem intercalate_pair (word : String) {words : List String} (filled : words ≠ []) :
    " ".intercalate (word :: words) = word ++ " " ++ " ".intercalate words :=
  String.intercalate_cons_of_ne_nil filled

/-- The arguments of a check, as they are written, are arguments of that check. -/
theorem writes_arguments {check : Check} (given : Grammar.IsArguments tokens check)
    (lexed : Lexed tokens) :
    Writes false (" ".intercalate check.arguments) (Grammar.IsArguments · check) := by
  cases check with
  | present tag | style tag | empty tag | first tag | last tag | padding tag =>
    obtain ⟨a, rfl, tagged⟩ := given
    rw [Check.arguments, String.intercalate_singleton]
    exact writes_tag tagged (lexed a (by simp))
  | position tag place =>
    obtain ⟨a, b, rfl, tagged, number⟩ := given
    rw [Check.arguments, intercalate_pair _ (by simp), String.intercalate_singleton]
    refine ((writes_tag tagged (lexed a (by simp))).blank (writes_number number)).imp ?_
    rintro _ ⟨_, _, rfl, ⟨a, rfl, tagged⟩, ⟨b, rfl, number⟩⟩
    exact ⟨a, b, rfl, tagged, number⟩
  | contains tag text | ownText tag text | ends tag text | begins tag text =>
    obtain ⟨a, b, rfl, tagged, quoted⟩ := given
    rw [Check.arguments, intercalate_pair _ (by simp), String.intercalate_singleton]
    refine ((writes_tag tagged (lexed a (by simp))).blank (writes_quote quoted (lexed b (by simp)))).imp ?_
    rintro _ ⟨_, _, rfl, ⟨a, rfl, tagged⟩, ⟨b, rfl, quoted⟩⟩
    exact ⟨a, b, rfl, tagged, quoted⟩
  | hasAttribute tag name =>
    obtain ⟨a, b, rfl, tagged, named⟩ := given
    rw [Check.arguments, intercalate_pair _ (by simp), String.intercalate_singleton]
    refine ((writes_tag tagged (lexed a (by simp))).blank
      (writes_name (allows_of_isName named (lexed b (by simp))) Bool.noConfusion)).imp ?_
    rintro _ ⟨_, _, rfl, ⟨a, rfl, tagged⟩, ⟨b, rfl, named⟩⟩
    exact ⟨a, b, rfl, tagged, named⟩
  | attributeEquals tag name text | attributeContains tag name text
  | attributeEnds tag name text =>
    obtain ⟨a, b, c, rfl, tagged, named, quoted⟩ := given
    rw [Check.arguments, intercalate_pair _ (by simp), intercalate_pair _ (by simp),
      String.intercalate_singleton]
    refine ((writes_tag tagged (lexed a (by simp))).blank
      ((writes_name (allows_of_isName named (lexed b (by simp))) Bool.noConfusion).blank
        (writes_quote quoted (lexed c (by simp))))).imp ?_
    rintro _ ⟨_, _, rfl, ⟨a, rfl, tagged⟩, ⟨_, _, rfl, ⟨b, rfl, named⟩, ⟨c, rfl, quoted⟩⟩⟩
    exact ⟨a, b, c, rfl, tagged, named, quoted⟩
  | namesVariable name =>
    obtain ⟨a, rfl, named⟩ := given
    rw [Check.arguments, String.intercalate_singleton]
    exact writes_name (allows_of_isName named (lexed a (by simp))) Bool.noConfusion

end Arguments

section Expressions

variable {start : Bool} {tokens : List Token}

theorem View.keyword_good (view : View) :
    (∃ c rest, view.keyword.toList = c :: rest ∧ startsName c = true) ∧
      ∀ c ∈ view.keyword.toList, continuesName c = true := by
  cases view <;> exact ⟨⟨_, _, rfl, by decide⟩, List.all_eq_true.1 (by decide)⟩

theorem Check.keyword_good (check : Check) : ∀ c ∈ check.keyword.toList, continuesName c = true := by
  apply List.all_eq_true.1
  cases check <;> simp only [Check.keyword] <;> decide

theorem allows_names {word : String} {view : View} {check : Check}
    (names : Grammar.NamesCheck word view check) : Kind.name.Allows word.toList := by
  obtain ⟨⟨c, rest, front, starts⟩, good⟩ := view.keyword_good
  rw [front] at good
  have inside (d : Char) (member : d ∈ rest) := good d (List.mem_cons_of_mem c member)
  rcases names with rfl | ⟨-, rfl⟩
  · simp only [String.toList_append, front, List.cons_append]
    apply Kind.Allows.name starts
    intro d member
    rcases List.mem_append.1 member with early | late
    · rcases List.mem_append.1 early with first | hyphen
      · exact inside d first
      · exact List.mem_singleton.1 hyphen ▸ rfl
    · exact check.keyword_good d late
  · exact front ▸ .name starts inside

/-- The written word for a check names it. -/
theorem namesCheck_wording (view : View) (check : Check) :
    Grammar.NamesCheck (if check.keyword.isEmpty then view.keyword
      else view.keyword ++ "-" ++ check.keyword) view check := by
  by_cases unnamed : check.keyword.isEmpty
  · rw [if_pos unnamed]
    exact .inr ⟨String.isEmpty_iff.1 unnamed, rfl⟩
  · rw [if_neg unnamed]
    exact .inl rfl

/-- A word and its arguments. -/
theorem writes_asking {word text : String} {phrase : List Token → Prop} {question : Question}
    (allows : Kind.name.Allows word.toList) (plain : ':' ∉ word.toList)
    (writes : Writes false text phrase)
    (asks : ∀ arguments, phrase arguments → Grammar.Asks word arguments question) :
    Writes start (word ++ " " ++ text) (Grammar.IsQuestion · question) := by
  apply ((writes_name allows fun _ => plain).blank writes).imp
  rintro _ ⟨_, arguments, rfl, ⟨token, rfl, named, value⟩, given⟩
  exact .ask named (value ▸ asks arguments given)

theorem writes_question {question : Question} (asked : Grammar.IsQuestion tokens question)
    (lexed : Lexed tokens) :
    Writes start (" ".intercalate question.wording) (Grammar.IsQuestion · question) := by
  cases asked with
  | @ask word arguments _ named asks =>
    have allowed := lexed.tail
    generalize word.value = text at asks
    cases asks with
    | @condition token name named =>
      rw [Question.wording, intercalate_pair _ (by simp), String.intercalate_singleton]
      have word : Kind.name.Allows "condition".toList := allows_word (by decide)
      apply writes_asking word (by decide)
        (writes_name (allows_of_isName named (allowed _ (by simp))) Bool.noConfusion)
      rintro _ ⟨token, rfl, named⟩
      exact .condition named
    | fail =>
      rw [Question.wording, String.intercalate_singleton]
      have word : Kind.name.Allows "fail".toList := allows_word (by decide)
      apply (writes_name word fun _ => by decide).imp
      rintro _ ⟨token, rfl, named, value⟩
      exact .ask named (value ▸ .fail)
    | @language token tag named =>
      rw [Question.wording, intercalate_pair _ (by simp), String.intercalate_singleton]
      have word : Kind.name.Allows "language".toList := allows_word (by decide)
      apply writes_asking word (by decide)
        (writes_name (allows_of_isName named (allowed _ (by simp))) Bool.noConfusion)
      rintro _ ⟨token, rfl, named⟩
      exact .language named
    | @snippet token source quoted =>
      rw [Question.wording, intercalate_pair _ (by simp), String.intercalate_singleton]
      have word : Kind.name.Allows "snippet".toList := allows_word (by decide)
      apply writes_asking word (by decide) (writes_quote quoted (allowed _ (by simp)))
      rintro _ ⟨token, rfl, quoted⟩
      exact .snippet quoted
    | @along _ view check _ names given =>
      have named := namesCheck_wording view check
      have filled : check.arguments ≠ [] := by cases check <;> exact List.cons_ne_nil _ _
      rw [Question.wording, intercalate_pair _ filled]
      exact writes_asking (allows_names named) (letters_of_asks (.along named given)).2
        (writes_arguments given allowed) fun arguments given => .along named given

theorem writes_term {predicate : Predicate} (isTerm : Grammar.IsTerm tokens predicate)
    (lexed : Lexed tokens) : Writes start predicate.text (Grammar.IsTerm · predicate) := by
  cases isTerm with
  | plain asked => exact (writes_question asked lexed).imp fun _ => .plain
  | @negated _ _ question _ asked =>
    have filled : question.wording ≠ [] := by cases question <;> exact List.cons_ne_nil _ _
    change Writes start (" ".intercalate ("not" :: question.wording)) _
    have word : Kind.name.Allows "not".toList := allows_word (by decide)
    rw [intercalate_pair _ filled]
    apply ((writes_name word fun _ => by decide).blank (writes_question asked lexed.tail)).imp
    rintro _ ⟨_, tokens, rfl, ⟨negation, rfl, negates⟩, asked⟩
    exact .negated negates asked

/-- Words joined by blanks make a line again: no name between two predicates is part of either. -/
theorem writes_line {line : List Predicate} (isLine : Grammar.IsLine tokens line)
    (lexed : Lexed tokens) :
    Writes start (" and ".intercalate (line.map (·.text))) (Grammar.IsLine · line) := by
  induction isLine generalizing start with
  | last isTerm =>
    rw [List.map_singleton, String.intercalate_singleton]
    exact (writes_term isTerm lexed).imp fun _ => .last
  | @joined _ rest joint predicate predicates isTerm joins others ih =>
    have filled : predicates.map (·.text) ≠ [] := by
      cases others <;> exact List.cons_ne_nil _ _
    have joint : Kind.name.Allows "and".toList := allows_word (by decide)
    have spaced (front back : String) :
        front ++ " and " ++ back = front ++ " " ++ ("and" ++ " " ++ back) := by
      rw [show " and " = " " ++ "and" ++ " " from rfl]
      simp only [String.append_assoc]
    rw [List.map_cons, String.intercalate_cons_of_ne_nil filled, spaced]
    apply ((writes_term isTerm lexed.split.1).blank
      ((writes_name joint Bool.noConfusion).blank (ih lexed.split.2.tail))).imp
    rintro _ ⟨one, _, rfl, isTerm, ⟨_, rest, rfl, ⟨joint, rfl, joins⟩, others⟩⟩
    exact .joined isTerm joins others

theorem writes_lines {lines : List (List Predicate)} (areLines : Grammar.AreLines tokens lines)
    (lexed : Lexed tokens) (filled : lines ≠ []) :
    Writes start (Expression.text ⟨lines⟩) (Grammar.AreLines · lines) := by
  unfold Expression.text
  induction areLines generalizing start with
  | none => exact absurd rfl filled
  | @next _ _ line lines first others ih =>
    have writes : Writes start (" and ".intercalate (line.map (·.text))) (Grammar.IsLine · line) :=
      writes_line first lexed.split.1
    cases others with
    | none =>
      rw [List.map_singleton, String.intercalate_singleton]
      apply writes.imp
      intro tokens isLine
      exact List.append_nil tokens ▸ .next isLine .none
    | next =>
      rw [List.map_cons, List.map_cons, String.intercalate_cons_of_ne_nil (List.cons_ne_nil _ _)]
      apply (writes.newline (ih lexed.split.2 (List.cons_ne_nil _ _))).imp
      rintro _ ⟨one, rest, rfl, isLine, others⟩
      exact .next isLine others

end Expressions

end TopicLint.Rule
