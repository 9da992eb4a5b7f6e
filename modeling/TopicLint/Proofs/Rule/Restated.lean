import TopicLint.Proofs.Rule.Derivation
import TopicLint.Proofs.Rule.Written

/-! Stating expressions again. The texts of a condition and a test, put into a rule file, compile to
this condition and this test, if some rule files state them; so no two expressions that can be
stated have the same text. -/

namespace TopicLint.Rule

/-- A rule file with the texts of a condition and a test. -/
def restated (condition test : Expression) : String :=
  "rule: error\nextensions: x\nwhen: " ++ condition.text ++ "\ntest: " ++ test.text ++ "\nmessage: m"

/-- An expression that some tokens state. -/
structure Stated (expression : Expression) : Prop where
  filled : expression.lines ≠ []
  stated : ∃ tokens, Lexed tokens ∧ Grammar.AreLines tokens expression.lines

section Statements

theorem areLines_append {one two : List Token} {lines others : List (List Predicate)}
    (first : Grammar.AreLines one lines) (second : Grammar.AreLines two others) :
    Grammar.AreLines (one ++ two) (lines ++ others) := by
  induction first with
  | none => exact second
  | next isLine _ ih =>
    rw [List.append_assoc]
    exact .next isLine ih

/-- The lines of all sections can stand in one. -/
theorem stated_of_areSections {header : String} {tokens : List Token}
    {sections : List (List (List Predicate))} (areSections : Grammar.AreSections header tokens sections)
    (lexed : Lexed tokens) : ∃ inside, Lexed inside ∧ Grammar.AreLines inside sections.flatten := by
  induction areSections with
  | none => exact ⟨[], lexed, .none⟩
  | next opens inside others ih =>
    obtain ⟨lexed', behind⟩ := lexed.tail.split
    obtain ⟨rest, lexed'', areLines⟩ := ih behind
    refine ⟨_, fun token member => ?_, areLines_append inside areLines⟩
    exact (List.mem_append.1 member).elim (lexed' token) (lexed'' token)

theorem stated_of_isBody {tokens : List Token} {d : Derivation} (isBody : Grammar.IsBody tokens d)
    (lexed : Lexed tokens) : Stated ⟨d.conditions.flatten⟩ ∧ Stated ⟨d.tests.flatten⟩ := by
  cases isBody with
  | parts _ _ _ _ _ condition conditional test testing =>
    obtain ⟨whens, tests⟩ := lexed.tail.tail.tail.split.2.split
    exact ⟨⟨conditional, stated_of_areSections condition whens⟩,
      ⟨testing, stated_of_areSections test tests⟩⟩

theorem stated_of_isRule {tokens : List Token} {d : Derivation} (isRule : Grammar.IsRule tokens d)
    (lexed : Lexed tokens) : Stated ⟨d.conditions.flatten⟩ ∧ Stated ⟨d.tests.flatten⟩ := by
  cases isRule with
  | stated inside => exact stated_of_isBody inside lexed.split.1.significant

theorem stated_of_derives {tokens : List Token} {d : Derivation} (derives : Grammar.Derives tokens d)
    (lexed : Lexed tokens) : Stated ⟨d.conditions.flatten⟩ ∧ Stated ⟨d.tests.flatten⟩ := by
  cases derives with
  | plain _ isRule => exact stated_of_isRule isRule lexed
  | commented _ _ _ _ _ isRule => exact stated_of_isRule isRule lexed.split.2.tail.split.2

theorem stated_of_compile {file source : String} {rule : TopicLint.Rule}
    (compiled : compile file source = .ok rule) : Stated rule.condition ∧ Stated rule.test := by
  have lexed := lexed_bodyTokens source
  obtain ⟨d, derives, rfl⟩ := (ruleOf_eq_ok_iff _ lexed).1 (compile_eq_ok.1 compiled)
  exact stated_of_derives derives lexed

end Statements

section Sources

variable {condition test : Expression}

theorem Stated.writes (stated : Stated condition) :
    Writes false condition.text (Grammar.AreLines · condition.lines) := by
  obtain ⟨filled, tokens, lexed, areLines⟩ := stated
  exact writes_lines areLines lexed filled

/-- A section with the lines of an expression. -/
theorem Stated.writes_section (stated : Stated condition) {header : String}
    (allows : Kind.header.Allows header.toList) :
    Writes true (header ++ " " ++ condition.text)
      (Grammar.AreSections header · [condition.lines]) := by
  apply ((Writes.header allows).blank stated.writes).imp
  rintro _ ⟨_, tokens, rfl, ⟨opening, rfl, opens⟩, areLines⟩
  have section' := Grammar.AreSections.next opens areLines .none
  rwa [List.append_nil] at section'

/-- What a rule file with the texts of a condition and a test states. -/
def restatement (condition test : Expression) (message : List Token) : Derivation where
  comment := none
  severity := .error
  extensions := ["x"]
  conditions := [condition.lines]
  tests := [test.lines]
  message := message

/-- A rule file with the texts of a condition and a test, up to the message. -/
def restatedBody (condition test : Expression) : String :=
  "rule:" ++ " " ++ "error" ++ "\n" ++ ("extensions:" ++ " " ++ "x" ++ "\n" ++
    ("when:" ++ " " ++ condition.text ++ "\n" ++ ("test:" ++ " " ++ test.text)))

theorem writes_body (conditional : Stated condition) (testing : Stated test) :
    Writes true (restatedBody condition test) fun tokens =>
      ∀ message, Grammar.IsBody tokens (restatement condition test message) := by
  have rule : Kind.header.Allows "rule:".toList := allows_header "rule" (by decide)
  have listing : Kind.header.Allows "extensions:".toList := allows_header "extensions" (by decide)
  have whens : Kind.header.Allows "when:".toList := allows_header "when" (by decide)
  have tests : Kind.header.Allows "test:".toList := allows_header "test" (by decide)
  have error : Kind.name.Allows "error".toList := allows_word (by decide)
  have extension : Kind.name.Allows "x".toList := allows_word (by decide)
  apply (((Writes.header rule).blank (writes_name error Bool.noConfusion)).newline
    (((Writes.header listing).blank (writes_name extension Bool.noConfusion)).newline
      ((conditional.writes_section whens).newline (testing.writes_section tests)))).imp
  rintro _ ⟨_, _, rfl, ⟨_, _, rfl, ⟨opening, rfl, opens⟩, ⟨severity, rfl, grave⟩⟩, _, _, rfl,
    ⟨_, _, rfl, ⟨listing, rfl, lists⟩, ⟨name, rfl, named, listed⟩⟩, whens, tests, rfl, condition, test⟩
  intro message
  change Grammar.IsBody (opening :: severity :: listing :: ([name] ++ (whens ++ tests))) _
  apply Grammar.IsBody.parts opens grave lists
  · exact fun token member => List.mem_singleton.1 member ▸ named
  · exact congrArg (fun value => [value]) listed
  · exact condition
  · simpa [restatement] using conditional.filled
  · exact test
  · simpa [restatement] using testing.filled

theorem restated_eq (condition test : Expression) :
    (restated condition test).toList = (restatedBody condition test).toList ++ "\nmessage: m".toList := by
  have opening : "rule: error\nextensions: x\nwhen: ".toList = "rule:".toList ++ (" ".toList ++
      ("error".toList ++ ("\n".toList ++ ("extensions:".toList ++ (" ".toList ++ ("x".toList ++
        ("\n".toList ++ ("when:".toList ++ " ".toList)))))))) := rfl
  have middle : "\ntest: ".toList = "\n".toList ++ ("test:".toList ++ " ".toList) := rfl
  unfold restated restatedBody
  simp only [String.toList_append, List.append_assoc, opening, middle]

/-- How the end of a rule file is cut. -/
def messageLexemes : List Lexeme :=
  [⟨.newline, ['\n']⟩, ⟨.header, "message:".toList⟩, ⟨.whitespace, [' ']⟩, ⟨.name, ['m']⟩]

theorem scans_message : Scans false "\nmessage: m".toList messageLexemes false [] := by
  have header : Scans true ("message".toList ++ ':' :: [' ', 'm']) _ _ _ :=
    scans_header (by decide) (List.all_eq_true.1 (by decide))
  have blank : Scans false [' ', 'm'] _ _ _ := scans_blank (by simp)
  have word : Scans false (['m'] ++ []) _ _ _ :=
    scans_word (by decide) (allows_word (by decide)) (by simp [Apart]) Bool.noConfusion
  exact scans_break.append (header.append (blank.append word))

theorem lexemes_restated {lexemes : List Lexeme}
    (spells : Spells true (restatedBody condition test) lexemes) :
    ∃ cut, (bodyTokens (restated condition test)).map Token.lexeme = cut ++ messageLexemes ∧
      cut.filter (! ·.isBlank) = lexemes := by
  obtain ⟨cut, scans, filtered⟩ := spells.scans "\nmessage: m".toList (by simp [Apart])
  have whole : Scans true (restated condition test).toList (cut ++ messageLexemes) false [] := by
    rw [restated_eq]
    exact scans.append scans_message
  -- Without stray characters no carriage return stands before a line break, so the source is its text.
  have known : ∀ lexeme ∈ cut ++ messageLexemes, lexeme.kind ≠ .other := by
    intro lexeme member other
    rcases List.mem_append.1 member with inside | last
    · have solid : (! lexeme.isBlank) = true := by simp [Lexeme.isBlank, other]
      exact spells.known lexeme (filtered ▸ List.mem_filter.2 ⟨inside, solid⟩) other
    · exact absurd other ((by decide : ∀ lexeme ∈ messageLexemes, lexeme.kind ≠ .other) lexeme last)
  have unmarked : dropMark (restated condition test).toList = (restated condition test).toList := by
    unfold restated
    simp only [String.toList_append]
    rfl
  refine ⟨cut, lexemes_bodyTokens_iff.2 ⟨false, ?_⟩, filtered⟩
  rw [plainText, unmarked, whole.unifyLineBreaks_eq known]
  exact whole

/-- The tokens of a rule file with the texts of a condition and a test state them. -/
theorem derives_restated (conditional : Stated condition) (testing : Stated test) :
    ∃ message, Grammar.Derives (bodyTokens (restated condition test))
      (restatement condition test message) := by
  obtain ⟨lexemes, spells, read⟩ := writes_body conditional testing
  obtain ⟨cut, cuts, filtered⟩ := lexemes_restated spells
  obtain ⟨body, _, split, front, last⟩ := List.map_eq_append_iff.1 cuts
  obtain ⟨lineBreak, _, rfl, breaks, last⟩ := List.map_eq_cons_iff.1 last
  obtain ⟨header, message, rfl, titled, last⟩ := List.map_eq_cons_iff.1 last
  have blank : lineBreak.isBlank = true := by
    rw [Token.isBlank, (Lexeme.mk.inj breaks).1]
    rfl
  -- The line break in front of the message belongs to the part before it.
  have nothing : significant [lineBreak] = [] := significant_blanks (by simpa using blank)
  have phrase : (significant (body ++ [lineBreak])).map Token.lexeme = lexemes := by
    rw [significant_append, nothing, List.append_nil, ← filtered, ← front, List.filter_map]
    rfl
  refine ⟨message, .plain rfl ?_⟩
  rw [split, List.append_cons]
  apply Grammar.IsRule.stated (read _ phrase message)
  · exact ⟨(Lexeme.mk.inj titled).1, String.toList_inj.1 (Lexeme.mk.inj titled).2⟩
  · intro token member
    have lexeme := last ▸ List.mem_map_of_mem member
    exact (by decide : ∀ lexeme ∈ messageLexemes.drop 2, lexeme.kind ≠ .header) token.lexeme lexeme

theorem compile_restated (conditional : Stated condition) (testing : Stated test) (file : String) :
    ∃ rule, compile file (restated condition test) = .ok rule ∧
      rule.condition = condition ∧ rule.test = test := by
  obtain ⟨message, derives⟩ := derives_restated conditional testing
  refine ⟨(restatement condition test message).rule file, ?_, ?_, ?_⟩
  · exact compile_eq_ok.2 ((ruleOf_eq_ok_iff _ (lexed_bodyTokens _)).2 ⟨_, derives, rfl⟩)
  · simp [Derivation.rule, restatement]
  · simp [Derivation.rule, restatement]

/-- An expression that can be stated is determined by its text. -/
theorem Stated.text_injective (first : Stated condition) (second : Stated test)
    (same : condition.text = test.text) : condition = test := by
  obtain ⟨rule, compiled, here, -⟩ := compile_restated first first ""
  obtain ⟨rule', compiled', there, -⟩ := compile_restated second second ""
  have sources : restated condition condition = restated test test := by
    unfold restated
    rw [same]
  rw [sources, compiled'] at compiled
  rw [← here, ← there, Except.ok.inj compiled]

end Sources

/-- The texts of the condition and the test of a rule state them: put into a rule file, they compile
to the same condition and test. No other expression that a rule file states has the same text. -/
theorem restates_itself {file source : String} {rule : TopicLint.Rule}
    (compiled : compile file source = .ok rule) :
    (∀ name, ∃ again, compile name (restated rule.condition rule.test) = .ok again ∧
      again.condition = rule.condition ∧ again.test = rule.test) ∧
    ∀ otherFile otherSource other, compile otherFile otherSource = .ok other →
      ∀ one ∈ [rule.condition, rule.test], ∀ two ∈ [other.condition, other.test],
        one.text = two.text → one = two := by
  obtain ⟨conditional, testing⟩ := stated_of_compile compiled
  constructor
  · exact compile_restated conditional testing
  · intro otherFile otherSource other compiled' one member two member'
    obtain ⟨conditional', testing'⟩ := stated_of_compile compiled'
    have stated : ∀ one ∈ [rule.condition, rule.test], Stated one := by simp [conditional, testing]
    have stated' : ∀ two ∈ [other.condition, other.test], Stated two := by simp [conditional', testing']
    exact (stated one member).text_injective (stated' two member')

/-- A rule file with tags that look like a joint, a header and a negation, and a text with all that is
escaped. -/
def lookalikes : String :=
  "rule: warning\nextensions: htm\nwhen: not child and and self- test:\n  and ancestor-position not 007\n" ++
    "when:\nself-text * \"a\\q\\\\\\n\"\ntest: fail\nmessage: x"

theorem restates_lookalikes :
    ∃ rule again, compile "tags" lookalikes = .ok rule ∧
      rule.condition.text =
        "not child and and self test: and ancestor-position not 7\nself-text * \"a\\\\q\\\\\\n\"" ∧
      compile "again" (restated rule.condition rule.test) = .ok again ∧
      again.condition = rule.condition ∧ again.test = rule.test := by
  have compiled : compile "tags" lookalikes = .ok
      { source := "tags", description := none, severity := .warning, extensions := ["htm"]
        condition := ⟨[[⟨true, .along .child (.present "and")⟩, ⟨false, .along .self (.present "test:")⟩,
          ⟨false, .along .ancestor (.position "not" 7)⟩],
          [⟨false, .along .self (.ownText "*" "a\\q\\\n")⟩]]⟩
        test := ⟨[[⟨false, .fail⟩]]⟩, message := "x" } := by
    decide +kernel
  obtain ⟨again, read, same⟩ := (restates_itself compiled).1 "again"
  exact ⟨_, again, compiled, by decide +kernel, read, same⟩

end TopicLint.Rule
