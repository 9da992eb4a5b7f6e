import TopicLint.Proofs.Rule.Word

/-! Parsers and the phrases that they take. A parser recognizes a kind of phrase if what it takes is
such a phrase, blanks left out, and if it takes every such phrase at the front of tokens. The
parsers of arguments, of words and of terms do; none of them looks at what follows. -/

namespace TopicLint.Rule

def Lexed (tokens : List Token) : Prop := ∀ token ∈ tokens, token.kind.Allows token.value.toList

theorem Lexed.split {first second : List Token} (lexed : Lexed (first ++ second)) :
    Lexed first ∧ Lexed second :=
  ⟨fun token member => lexed token (List.mem_append_left _ member),
    fun token member => lexed token (List.mem_append_right _ member)⟩

theorem Lexed.tail {token : Token} {rest : List Token} (lexed : Lexed (token :: rest)) : Lexed rest :=
  fun other member => lexed other (List.mem_cons_of_mem _ member)

section Blanks

variable {tokens rest more blanks : List Token} {token : Token}

theorem significant_append (first second : List Token) :
    significant (first ++ second) = significant first ++ significant second :=
  List.filter_append ..

theorem significant_blanks (blank : ∀ token ∈ blanks, token.isBlank = true) :
    significant blanks = [] := by
  refine List.filter_eq_nil_iff.2 fun token member => ?_
  simp [blank token member]

theorem significant_cons (solid : token.isBlank = false) :
    significant (token :: rest) = token :: significant rest :=
  List.filter_cons_of_pos (by simp [solid])

theorem Lexed.significant (lexed : Lexed tokens) : Lexed (significant tokens) :=
  fun token member => lexed token (List.mem_filter.1 member).1

/-- The tokens in front of the first significant one are blank. -/
theorem exists_blanks (tokens : List Token) :
    ∃ blanks, (∀ token ∈ blanks, token.isBlank = true) ∧ tokens = blanks ++ skipBlank tokens :=
  ⟨tokens.takeWhile (·.isBlank), fun token member => List.all_eq_true.1 List.all_takeWhile token member,
    List.takeWhile_append_dropWhile.symm⟩

theorem significant_skipBlank (tokens : List Token) :
    significant (skipBlank tokens) = significant tokens := by
  obtain ⟨blanks, blank, split⟩ := exists_blanks tokens
  calc
    significant (skipBlank tokens) = significant (blanks ++ skipBlank tokens) := by
      rw [significant_append, significant_blanks blank, List.nil_append]
    _ = significant tokens := by rw [← split]

theorem isBlank_of_skipBlank (found : skipBlank tokens = token :: rest) : token.isBlank = false := by
  have head := List.head?_dropWhile_not (·.isBlank) tokens
  rw [show tokens.dropWhile (·.isBlank) = token :: rest from found] at head
  simpa using head

/-- The first significant token is the one that is found behind blanks. -/
theorem skipBlank_of_significant (found : significant tokens = token :: more) :
    ∃ rest, skipBlank tokens = token :: rest ∧ significant rest = more := by
  rw [← significant_skipBlank] at found
  cases skipped : skipBlank tokens with
  | nil =>
    rw [skipped] at found
    cases found
  | cons first rest =>
    rw [skipped, significant_cons (isBlank_of_skipBlank skipped)] at found
    cases found
    exact ⟨rest, rfl, rfl⟩

/-- What is taken behind blanks is taken with the blanks. -/
theorem split_of_skipBlank (front : List Token) (found : skipBlank tokens = front ++ rest) :
    ∃ taken, tokens = taken ++ rest ∧ significant taken = significant front := by
  obtain ⟨blanks, blank, split⟩ := exists_blanks tokens
  refine ⟨blanks ++ front, by rw [split, found, List.append_assoc], ?_⟩
  rw [significant_append, significant_blanks blank, List.nil_append]

theorem Lexed.skipBlank (lexed : Lexed tokens) : Lexed (skipBlank tokens) :=
  fun token member => lexed token ((List.dropWhile_sublist _).subset member)

end Blanks

abbrev Phrases (α : Type) := List Token → α → Prop

/-- A parser takes the given phrases and no others, whatever follows. -/
structure Recognizes {α : Type} (parser : Parser α) (phrases : Phrases α) : Prop where
  takes : ∀ tokens value rest, Lexed tokens → parser tokens = .ok (value, rest) →
    ∃ taken, tokens = taken ++ rest ∧ phrases (significant taken) value
  accepts : ∀ tokens phrase more value, Lexed tokens → significant tokens = phrase ++ more →
    phrases phrase value → ∃ rest, parser tokens = .ok (value, rest) ∧ significant rest = more

section Combining

variable {α β : Type} {ending : Token}

/-- A phrase followed by one that depends on what it stands for. -/
def followed (first : Phrases α) (second : α → Phrases β) : Phrases β := fun phrase value =>
  ∃ one two middle, phrase = one ++ two ∧ first one middle ∧ second middle two value

def given (value : α) : Phrases α := fun phrase result => phrase = [] ∧ result = value

def single (means : Token → α → Prop) : Phrases α := fun phrase value =>
  ∃ token, phrase = [token] ∧ means token value

theorem bind_of_read {first : Parser α} {next : α → Parser β} {tokens rest : List Token} {middle : α}
    (read : first tokens = .ok (middle, rest)) : (first >>= next) tokens = next middle rest := by
  simp [bind, StateT.bind, Except.bind, read]

theorem recognizes_pure (value : α) : Recognizes (pure value) (given value) where
  takes tokens result rest _ read := by
    cases read
    exact ⟨[], rfl, rfl, rfl⟩
  accepts tokens phrase more result _ split given := by
    obtain ⟨rfl, rfl⟩ := given
    exact ⟨tokens, rfl, split⟩

theorem recognizes_bind {first : Parser α} {next : α → Parser β} {start : Phrases α}
    {continued : α → Phrases β} (begins : Recognizes first start)
    (goes : ∀ middle, Recognizes (next middle) (continued middle)) :
    Recognizes (first >>= next) (followed start continued) where
  takes tokens value rest lexed read := by
    obtain ⟨middle, between, one, two⟩ := bind_read read
    obtain ⟨head, rfl, isHead⟩ := begins.takes _ _ _ lexed one
    obtain ⟨tail, rfl, isTail⟩ := (goes middle).takes _ _ _ lexed.split.2 two
    refine ⟨head ++ tail, (List.append_assoc ..).symm, ?_⟩
    exact ⟨_, _, middle, significant_append head tail, isHead, isTail⟩
  accepts tokens phrase more value lexed split followed := by
    obtain ⟨one, two, middle, rfl, isHead, isTail⟩ := followed
    rw [List.append_assoc] at split
    obtain ⟨between, read, rest⟩ := begins.accepts _ _ _ _ lexed split isHead
    obtain ⟨taken, rfl, -⟩ := begins.takes _ _ _ lexed read
    rw [bind_of_read read]
    exact (goes middle).accepts _ _ _ _ lexed.split.2 rest isTail

theorem Recognizes.congr {parser : Parser α} {phrases others : Phrases α}
    (recognizes : Recognizes parser phrases)
    (same : ∀ phrase value, Lexed phrase → (phrases phrase value ↔ others phrase value)) :
    Recognizes parser others where
  takes tokens value rest lexed read := by
    obtain ⟨taken, rfl, isPhrase⟩ := recognizes.takes _ _ _ lexed read
    exact ⟨taken, rfl, (same _ _ lexed.split.1.significant).1 isPhrase⟩
  accepts tokens phrase more value lexed split isPhrase := by
    have lexed' := lexed.significant
    rw [split] at lexed'
    exact recognizes.accepts _ _ _ _ lexed split ((same _ _ lexed'.split.1).2 isPhrase)

theorem recognizes_argument (ending : Token) (accepts : Kind → Bool) (cause : Token → Cause) :
    Recognizes (argument ending accepts cause)
      (single fun token value => accepts token.kind = true ∧ value = token) where
  takes tokens value rest _ read := by
    unfold argument at read
    split at read
    next => cases read
    next token more found =>
      split at read
      next accepted =>
        cases read
        obtain ⟨taken, split, phrase⟩ := split_of_skipBlank [value] found
        exact ⟨taken, split, value, phrase.trans (significant_cons (isBlank_of_skipBlank found)),
          accepted, rfl⟩
      next => cases read
  accepts tokens phrase more value _ split isPhrase := by
    obtain ⟨token, rfl, accepted, rfl⟩ := isPhrase
    obtain ⟨rest, found, behind⟩ := skipBlank_of_significant split
    refine ⟨rest, ?_, behind⟩
    unfold argument
    rw [found]
    exact if_pos accepted

theorem recognizes_throw (fault : Fault) :
    Recognizes (throw fault : Parser α) fun _ _ => False where
  takes _ _ _ _ read := by cases read
  accepts _ _ _ _ _ _ refused := refused.elim

/-- A token whose meaning is worked out without taking more tokens. -/
theorem recognizes_single {accepts : Kind → Bool} {cause : Token → Cause} {next : Token → Parser α}
    {means describes : Token → α → Prop}
    (reads : ∀ token, Recognizes (next token) fun phrase value => phrase = [] ∧ means token value)
    (same : ∀ token value, token.kind.Allows token.value.toList →
      (accepts token.kind = true ∧ means token value ↔ describes token value)) :
    Recognizes (argument ending accepts cause >>= next) (single describes) := by
  refine (recognizes_bind (recognizes_argument _ _ _) reads).congr fun phrase value lexed => ?_
  constructor
  · rintro ⟨_, _, _, rfl, ⟨token, rfl, accepted, rfl⟩, rfl, meant⟩
    exact ⟨_, rfl, (same _ _ (lexed _ List.mem_cons_self)).1 ⟨accepted, meant⟩⟩
  · rintro ⟨token, rfl, described⟩
    obtain ⟨accepted, meant⟩ := (same _ _ (lexed _ List.mem_cons_self)).2 described
    exact ⟨[token], [], token, rfl, ⟨token, rfl, accepted, rfl⟩, rfl, meant⟩

variable {γ : Type} {one : Parser α} {two : Parser β} {first : Token → α → Prop}
  {second : Token → β → Prop}

theorem recognizes_one (reads : Recognizes one (single first)) (make : α → γ) :
    Recognizes (do return make (← one))
      fun phrase value => ∃ a x, phrase = [a] ∧ first a x ∧ value = make x := by
  refine (recognizes_bind reads fun x => recognizes_pure (make x)).congr fun phrase value _ => ⟨?_, ?_⟩
  · rintro ⟨_, _, x, rfl, ⟨a, rfl, means⟩, rfl, rfl⟩
    exact ⟨a, x, rfl, means, rfl⟩
  · rintro ⟨a, x, rfl, means, rfl⟩
    exact ⟨[a], [], x, rfl, ⟨a, rfl, means⟩, rfl, rfl⟩

theorem recognizes_two (reads : Recognizes one (single first)) (more : Recognizes two (single second))
    (make : α → β → γ) : Recognizes (do
      let x ← one
      return make x (← two))
      fun phrase value => ∃ a b x y, phrase = [a, b] ∧ first a x ∧ second b y ∧ value = make x y := by
  refine (recognizes_bind reads fun x => recognizes_one more (make x)).congr
    fun phrase value _ => ⟨?_, ?_⟩
  · rintro ⟨_, _, x, rfl, ⟨a, rfl, means⟩, b, y, rfl, meant, rfl⟩
    exact ⟨a, b, x, y, rfl, means, meant, rfl⟩
  · rintro ⟨a, b, x, y, rfl, means, meant, rfl⟩
    exact ⟨[a], [b], x, rfl, ⟨a, rfl, means⟩, b, y, rfl, meant, rfl⟩

end Combining

section Arguments

variable (ending : Token) (context : String)

theorem recognizes_tagArgument : Recognizes (tagArgument ending context) (single Grammar.IsTag) := by
  refine recognizes_single (fun token => recognizes_pure token.value) fun token value _ => ?_
  rw [Grammar.IsTag, Bool.or_eq_true, beq_iff_eq, beq_iff_eq, @eq_comm _ value]

theorem recognizes_nameArgument : Recognizes (nameArgument ending context) (single Grammar.IsName) := by
  refine recognizes_single (fun token => recognizes_pure token.value) fun token value _ => ?_
  rw [Grammar.IsName, beq_iff_eq, @eq_comm _ value]

theorem recognizes_quoteArgument :
    Recognizes (quoteArgument ending context) (single Grammar.IsQuote) := by
  refine recognizes_single (fun token => recognizes_pure (Quoted.unquote token.value))
    fun token value _ => ?_
  rw [Grammar.IsQuote, beq_iff_eq, @eq_comm _ value]

theorem word?_eq_some_iff {digits : List Char} (filled : digits ≠ [])
    (good : ∀ c ∈ digits, c.isDigit = true) (n : Nat) :
    Text.word? digits = some n ↔ Text.decimal digits = n ∧ n < Text.wordLimit := by
  have all : digits.all Char.isDigit = true := List.all_eq_true.2 good
  have counted : digits.isEmpty = false := List.isEmpty_eq_false_iff.2 filled
  simp only [Text.word?, all, counted, Bool.not_false, Bool.and_self, Bool.true_and, decide_eq_true_eq,
    Option.ite_none_right_eq_some, Option.some.injEq]
  constructor
  · rintro ⟨small, rfl⟩
    exact ⟨rfl, small⟩
  · rintro ⟨rfl, small⟩
    exact ⟨small, rfl⟩

theorem recognizes_numberArgument :
    Recognizes (numberArgument ending context) (single Grammar.IsNumber) := by
  have same (token : Token) (n : Nat) (allowed : token.kind.Allows token.value.toList) :
      (token.kind == .number) = true ∧ Text.word? token.value.toList = some n ↔
        Grammar.IsNumber token n := by
    rw [Grammar.IsNumber, beq_iff_eq]
    refine and_congr_right fun number => ?_
    rw [number] at allowed
    cases allowed with
    | number filled good => exact word?_eq_some_iff filled good n
  refine recognizes_single (fun token => ?_) same
  cases Text.word? token.value.toList with
  | none => exact (recognizes_throw _).congr fun phrase value _ => by simp
  | some n => exact (recognizes_pure n).congr fun phrase value _ => by simp [given, eq_comm]

theorem recognizes_formArguments (form : Form) :
    Recognizes (formArguments ending context form) (Fills form) := by
  have tag := recognizes_tagArgument ending context
  have name := recognizes_nameArgument ending context
  have number := recognizes_numberArgument ending context
  have text := recognizes_quoteArgument ending context
  cases form with
  | tag check =>
    refine (recognizes_one tag check).congr fun phrase value _ => ⟨?_, ?_⟩
    · rintro ⟨a, _, rfl, isTag, rfl⟩
      exact .tag isTag
    · intro fills
      cases fills with
      | tag isTag => exact ⟨_, _, rfl, isTag, rfl⟩
  | tagNumber check =>
    refine (recognizes_two tag number check).congr fun phrase value _ => ⟨?_, ?_⟩
    · rintro ⟨a, b, _, _, rfl, isTag, isNumber, rfl⟩
      exact .tagNumber isTag isNumber
    · intro fills
      cases fills with
      | tagNumber isTag isNumber => exact ⟨_, _, _, _, rfl, isTag, isNumber, rfl⟩
  | tagQuote check =>
    refine (recognizes_two tag text check).congr fun phrase value _ => ⟨?_, ?_⟩
    · rintro ⟨a, b, _, _, rfl, isTag, isQuote, rfl⟩
      exact .tagQuote isTag isQuote
    · intro fills
      cases fills with
      | tagQuote isTag isQuote => exact ⟨_, _, _, _, rfl, isTag, isQuote, rfl⟩
  | tagName check =>
    refine (recognizes_two tag name check).congr fun phrase value _ => ⟨?_, ?_⟩
    · rintro ⟨a, b, _, _, rfl, isTag, isName, rfl⟩
      exact .tagName isTag isName
    · intro fills
      cases fills with
      | tagName isTag isName => exact ⟨_, _, _, _, rfl, isTag, isName, rfl⟩
  | tagNameQuote check =>
    refine (recognizes_bind tag fun _ => recognizes_two name text _).congr
      fun phrase value _ => ⟨?_, ?_⟩
    · rintro ⟨_, _, _, rfl, ⟨a, rfl, isTag⟩, b, c, _, _, rfl, isName, isQuote, rfl⟩
      exact .tagNameQuote isTag isName isQuote
    · intro fills
      cases fills with
      | tagNameQuote isTag isName isQuote =>
        exact ⟨[_], _, _, rfl, ⟨_, rfl, isTag⟩, _, _, _, _, rfl, isName, isQuote, rfl⟩
  | name check =>
    refine (recognizes_one name check).congr fun phrase value _ => ⟨?_, ?_⟩
    · rintro ⟨a, _, rfl, isName, rfl⟩
      exact .name isName
    · intro fills
      cases fills with
      | name isName => exact ⟨_, _, rfl, isName, rfl⟩

end Arguments

section Predicates

variable (ending : Token)

theorem recognizes_questionOf (word : String) (line : Nat) :
    Recognizes (questionOf ending word line) (Grammar.Asks word) := by
  unfold questionOf
  cases viewed : View.ofKeyword? (viewAndCheck word).1 with
  | some view =>
    cases formed : Check.forms.lookup (viewAndCheck word).2 with
    | some form =>
      refine (recognizes_bind (recognizes_formArguments ending word form)
        fun check => recognizes_pure (Question.along view check)).congr fun phrase value _ => ⟨?_, ?_⟩
      · rintro ⟨arguments, _, check, rfl, fills, rfl, rfl⟩
        obtain ⟨named, given⟩ := isArguments_of_fills formed fills
        rw [List.append_nil]
        exact .along (namesCheck_iff.2 ⟨viewed, named.symm⟩) given
      · intro asks
        obtain ⟨check, rfl, named, given⟩ := along_of_asks viewed asks
        obtain ⟨sameForm, formed', fills⟩ := fills_of_isArguments given
        rw [← named, formed] at formed'
        cases formed'
        exact ⟨_, [], _, (List.append_nil _).symm, fills, rfl, rfl⟩
    | none =>
      refine (recognizes_throw _).congr fun phrase value _ => ⟨False.elim, fun asks => ?_⟩
      obtain ⟨check, rfl, named, given⟩ := along_of_asks viewed asks
      obtain ⟨form, formed', -⟩ := fills_of_isArguments given
      rw [← named, formed] at formed'
      cases formed'
  | none =>
    have name := recognizes_nameArgument ending word
    have quote := recognizes_quoteArgument ending word
    dsimp only
    split
    next isCondition =>
      refine (recognizes_one name Question.condition).congr fun phrase value _ => ?_
      rw [asks_iff_of_none viewed]
      simp [isCondition]
    next notCondition =>
      split
      next isFail =>
        refine (recognizes_pure Question.fail).congr fun phrase value _ => ?_
        rw [asks_iff_of_none viewed]
        simp [isFail, given]
      next notFail =>
        split
        next isLanguage =>
          refine (recognizes_one name Question.language).congr fun phrase value _ => ?_
          rw [asks_iff_of_none viewed]
          simp [isLanguage]
        next notLanguage =>
          split
          next isSnippet =>
            refine (recognizes_one quote Question.snippet).congr fun phrase value _ => ?_
            rw [asks_iff_of_none viewed]
            simp [isSnippet]
          next notSnippet =>
            refine (recognizes_throw _).congr fun phrase value _ => ?_
            rw [asks_iff_of_none viewed]
            simp [notCondition, notFail, notLanguage, notSnippet]

def IsPlain (phrase : List Token) (predicate : Predicate) : Prop :=
  ∃ question, predicate = ⟨false, question⟩ ∧ Grammar.IsQuestion phrase question

theorem recognizes_plainPredicate : Recognizes (plainPredicate ending) IsPlain := by
  refine (recognizes_bind (recognizes_argument _ _ _) fun token =>
    recognizes_bind (recognizes_questionOf ending token.value token.line) fun question =>
      recognizes_pure (Predicate.mk false question)).congr fun phrase value lexed => ⟨?_, ?_⟩
  · rintro ⟨_, _, _, rfl, ⟨token, rfl, -, rfl⟩, arguments, _, question, rfl, asks, rfl, rfl⟩
    rw [List.append_nil]
    exact ⟨question, rfl, .ask (eq_name_of_asks (lexed _ List.mem_cons_self) asks) asks⟩
  · rintro ⟨question, rfl, asked⟩
    cases asked with
    | @ask token arguments _ _ asks =>
      exact ⟨[token], arguments, token, rfl, ⟨token, rfl, rfl, rfl⟩, arguments, [], question,
        (List.append_nil _).symm, asks, rfl, rfl⟩

theorem isWord_iff {word : String} {token : Token} :
    isWord word token = true ↔ Grammar.IsName token word := by
  simp [isWord, Grammar.IsName]

/-- A question starts with a name that neither negates nor joins. -/
theorem head_of_isQuestion {phrase : List Token} {question : Question}
    (asked : Grammar.IsQuestion phrase question) :
    ∃ token more, phrase = token :: more ∧ token.kind = .name ∧ token.value ≠ "not" ∧
      token.value ≠ "and" := by
  cases asked with
  | @ask token arguments _ named asks =>
    refine ⟨token, arguments, rfl, named, ?_, ?_⟩
    · intro negates
      rw [negates, asks_iff_of_none (by decide)] at asks
      simp at asks
    · intro joins
      rw [joins, asks_iff_of_none (by decide)] at asks
      simp at asks

theorem recognizes_term : Recognizes (term ending) Grammar.IsTerm where
  takes tokens value rest lexed read := by
    have reads := recognizes_plainPredicate ending
    unfold term at read
    split at read
    next =>
      obtain ⟨taken, split, question, -, asked⟩ :=
        reads.takes _ _ _ (fun _ member => absurd member List.not_mem_nil) read
      obtain ⟨rfl, rfl⟩ := List.append_eq_nil_iff.1 split.symm
      cases asked
    next token more found =>
      have lexed' := lexed.skipBlank
      rw [found] at lexed'
      split at read
      next negates =>
        obtain ⟨predicate, between, one, done⟩ := bind_read read
        cases done
        obtain ⟨front, rfl, question, rfl, asked⟩ := reads.takes _ _ _ lexed'.tail one
        obtain ⟨taken, split, same⟩ := split_of_skipBlank (token :: front) found
        refine ⟨taken, split, ?_⟩
        rw [same, significant_cons (isBlank_of_skipBlank found)]
        exact .negated (isWord_iff.1 negates) asked
      next =>
        obtain ⟨front, cut, question, rfl, asked⟩ := reads.takes _ _ _ lexed' read
        obtain ⟨taken, split, same⟩ := split_of_skipBlank _ (found.trans cut)
        exact ⟨taken, split, same ▸ .plain asked⟩
  accepts tokens phrase more value lexed split isTerm := by
    have reads := recognizes_plainPredicate ending
    cases isTerm with
    | @plain _ question asked =>
      obtain ⟨token, others, rfl, -, positive, -⟩ := head_of_isQuestion asked
      obtain ⟨behind, found, after⟩ := skipBlank_of_significant split
      have lexed' := lexed.skipBlank
      rw [found] at lexed'
      have split' : significant (token :: behind) = token :: others ++ more := by
        rw [significant_cons (isBlank_of_skipBlank found), after]
        rfl
      have unlike : ¬isWord "not" token = true := fun same => positive (isWord_iff.1 same).2
      unfold term
      rw [found]
      dsimp only
      rw [if_neg unlike]
      exact reads.accepts _ _ _ _ lexed' split' ⟨question, rfl, asked⟩
    | @negated token others question negates asked =>
      obtain ⟨behind, found, after⟩ := skipBlank_of_significant split
      have lexed' := lexed.skipBlank
      rw [found] at lexed'
      obtain ⟨rest, read, left⟩ := reads.accepts _ _ _ _ lexed'.tail after ⟨question, rfl, asked⟩
      unfold term
      rw [found]
      dsimp only
      rw [if_pos (isWord_iff.2 negates), bind_of_read read]
      exact ⟨rest, rfl, left⟩

end Predicates

end TopicLint.Rule
