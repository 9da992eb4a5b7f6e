import Mathlib.Data.List.TakeWhile
import TopicLint.Proofs.Rule.Section

/-! Compiling and the grammar. The compiler accepts a source just when its tokens have a derivation,
states the rule of that derivation, and no tokens have two. -/

namespace TopicLint.Rule

section Runs

variable {α : Type} {p : α → Bool} {inside rest other left : List α}

/-- A run of elements that goes on as long as it can is found by looking at them. -/
theorem run_eq (all : ∀ a ∈ inside, p a = true) (ends : ∀ a more, rest = a :: more → p a = false) :
    (inside ++ rest).takeWhile p = inside ∧ (inside ++ rest).dropWhile p = rest := by
  rw [List.takeWhile_append_of_pos all, List.dropWhile_append_of_pos all]
  cases rest with
  | nil => exact ⟨List.append_nil inside, rfl⟩
  | cons a more =>
    have stops := ends a more rfl
    rw [List.takeWhile_cons_of_neg (by simp [stops]), List.dropWhile_cons_of_neg (by simp [stops])]
    exact ⟨List.append_nil inside, rfl⟩

theorem unique_run (all : ∀ a ∈ inside, p a = true) (ends : ∀ a more, rest = a :: more → p a = false)
    (all' : ∀ a ∈ other, p a = true) (ends' : ∀ a more, left = a :: more → p a = false)
    (same : inside ++ rest = other ++ left) : inside = other ∧ rest = left := by
  obtain ⟨taken, dropped⟩ := run_eq all ends
  obtain ⟨taken', dropped'⟩ := run_eq all' ends'
  rw [same] at taken dropped
  exact ⟨taken.symm.trans taken', dropped.symm.trans dropped'⟩

theorem stops_dropWhile (elements : List α) :
    ∀ a more, elements.dropWhile p = a :: more → p a = false := by
  intro a more found
  have head := List.head?_dropWhile_not p elements
  rw [found] at head
  simpa using head

end Runs

section Parts

variable (ending : Token) {tokens rest : List Token} {header : String}

theorem bind_eq_ok {ε α β : Type} {first : Except ε α} {next : α → Except ε β} {result : β} :
    (first >>= next) = .ok result ↔ ∃ middle, first = .ok middle ∧ next middle = .ok result := by
  cases first with
  | error fault => exact ⟨fun done => (nomatch done), fun ⟨_, done, _⟩ => (nomatch done)⟩
  | ok value =>
    constructor
    · exact fun done => ⟨value, rfl, done⟩
    · rintro ⟨_, ⟨⟩, done⟩
      exact done

theorem fromSection_eq_ok {found : List Token} :
    fromSection ending header tokens = .ok found ↔
      ∃ opening rest, skipBlank tokens = opening :: rest ∧ Grammar.IsHeader opening header ∧
        found = opening :: rest := by
  unfold fromSection
  split
  next nothing => simp [nothing]
  next token more skipped =>
    rw [skipped]
    split
    next opens =>
      constructor
      · rintro ⟨⟩
        exact ⟨token, more, rfl, isSection_iff.1 opens, rfl⟩
      · rintro ⟨_, _, ⟨⟩, -, rfl⟩
        rfl
    next closed =>
      constructor
      · rintro ⟨⟩
      · rintro ⟨_, _, ⟨⟩, opens, -⟩
        exact absurd (isSection_iff.2 opens) closed

/-- A parser takes the given phrases, and all of one if what follows does not go on with it. -/
structure RecognizesBefore {α : Type} (follows : Token → Prop) (parser : Parser α)
    (phrases : Phrases α) : Prop where
  takes : ∀ tokens value rest, Lexed tokens → parser tokens = .ok (value, rest) →
    ∃ taken, tokens = taken ++ rest ∧ phrases (significant taken) value
  accepts : ∀ tokens phrase more value, Lexed tokens → significant tokens = phrase ++ more →
    Starts follows more → phrases phrase value →
      ∃ rest, parser tokens = .ok (value, rest) ∧ significant rest = more

theorem Recognizes.before {α : Type} {parser : Parser α} {phrases : Phrases α}
    (recognizes : Recognizes parser phrases) (follows : Token → Prop) :
    RecognizesBefore follows parser phrases where
  takes := recognizes.takes
  accepts _ _ _ _ lexed split _ := recognizes.accepts _ _ _ _ lexed split

/-- An accepted phrase is taken off the front, and the compiler goes on behind it. -/
theorem RecognizesBefore.reads {α : Type} {follows : Token → Prop} {parser : Parser α}
    {phrases : Phrases α} {phrase more : List Token} {value : α}
    (recognizes : RecognizesBefore follows parser phrases) (lexed : Lexed tokens)
    (split : significant tokens = phrase ++ more) (starts : Starts follows more)
    (isPhrase : phrases phrase value) :
    ∃ taken rest, tokens = taken ++ rest ∧ parser tokens = .ok (value, rest) ∧
      significant rest = more ∧ Lexed rest := by
  obtain ⟨rest, read, left⟩ := recognizes.accepts _ _ _ _ lexed split starts isPhrase
  obtain ⟨taken, cut, -⟩ := recognizes.takes _ _ _ lexed read
  exact ⟨taken, rest, cut, read, left, (cut ▸ lexed).split.2⟩

def IsGravity (phrase : List Token) (severity : Severity) : Prop :=
  ∃ opening word, phrase = [opening, word] ∧ Grammar.IsHeader opening "rule:" ∧
    Grammar.IsName word severity.name

theorem ofName?_eq_some_iff {word : String} {severity : Severity} :
    Severity.ofName? word = some severity ↔ severity.name = word := by
  constructor
  · intro found
    exact eq_of_beq (List.find?_some found :)
  · rintro rfl
    exact Severity.ofName?_name severity

theorem recognizes_ruleType : Recognizes (ruleType ending) IsGravity where
  takes tokens severity rest lexed read := by
    obtain ⟨found, begun, read⟩ := bind_eq_ok.1 read
    obtain ⟨opening, behind, skipped, opens, rfl⟩ := (fromSection_eq_ok ending).1 begun
    obtain ⟨⟨word, left⟩, argued, read⟩ := bind_eq_ok.1 read
    have lexed' := lexed.skipBlank
    rw [skipped] at lexed'
    obtain ⟨front, cut, _, same, named, rfl⟩ :=
      (recognizes_argument _ _ _).takes _ _ _ lexed'.tail argued
    dsimp only at read
    split at read
    next severity' found =>
      cases read
      have whole : skipBlank tokens = opening :: front ++ rest := skipped.trans (congrArg _ cut)
      obtain ⟨taken, split, same'⟩ := split_of_skipBlank _ whole
      refine ⟨taken, split, opening, word, ?_, opens, eq_of_beq named,
        (ofName?_eq_some_iff.1 found).symm⟩
      rw [same', significant_cons (isBlank_of_skipBlank skipped), same]
    next => cases read
  accepts tokens phrase more severity lexed split gravity := by
    obtain ⟨opening, word, rfl, opens, named⟩ := gravity
    obtain ⟨behind, skipped, after⟩ := skipBlank_of_significant split
    have lexed' := lexed.skipBlank
    rw [skipped] at lexed'
    have isName := recognizes_argument ending (· == .name) (.expectedName "rule:")
    obtain ⟨rest, argued, left⟩ := isName.accepts _ [word] _ word lexed'.tail after
      ⟨word, rfl, beq_iff_eq.2 named.1, rfl⟩
    refine ⟨rest, bind_eq_ok.2 ⟨_, (fromSection_eq_ok ending).2
      ⟨opening, behind, skipped, opens, rfl⟩, bind_eq_ok.2 ⟨_, argued, ?_⟩⟩, left⟩
    dsimp only
    rw [named.2, Severity.ofName?_name]
    rfl

def IsListing (phrase : List Token) (extensions : List String) : Prop :=
  ∃ listing names, phrase = listing :: names ∧ Grammar.IsHeader listing "extensions:" ∧
    (∀ token ∈ names, token.kind = .name) ∧ names.map (·.value) = extensions

/-- Whether a list of extensions goes on with a token. -/
def isListed (token : Token) : Bool := token.isBlank || token.kind == .name

/-- The names of a list of extensions are its significant tokens. -/
theorem filter_listed (tokens : List Token) :
    (tokens.takeWhile isListed).filter (·.kind == .name) = significant (tokens.takeWhile isListed) := by
  refine List.filter_congr fun token member => ?_
  have listed := List.all_eq_true.1 List.all_takeWhile token member
  unfold isListed Token.isBlank at listed
  unfold Token.isBlank
  cases kind : token.kind <;> rw [kind] at listed <;> first | rfl | cases listed

theorem stops_of_starts (starts : Starts (fun token => token.kind ≠ .name) tokens) :
    ∀ token rest, tokens = token :: rest → (token.kind == .name) = false :=
  fun token rest split => beq_eq_false_iff_ne.2 (starts token rest split)

theorem starts_unlisted (tokens : List Token) :
    Starts (fun token => token.kind ≠ .name) (significant (tokens.dropWhile isListed)) := by
  intro token more found
  cases left : tokens.dropWhile isListed with
  | nil =>
    rw [left] at found
    cases found
  | cons first rest =>
    have unlisted := stops_dropWhile _ _ _ left
    simp only [isListed, Bool.or_eq_false_iff, beq_eq_false_iff_ne] at unlisted
    rw [left, significant_cons unlisted.1] at found
    cases found
    exact unlisted.2

theorem recognizes_extensionList :
    RecognizesBefore (fun token => token.kind ≠ .name) (extensionList ending) IsListing where
  takes tokens extensions rest lexed read := by
    obtain ⟨found, begun, read⟩ := bind_eq_ok.1 read
    obtain ⟨listing, behind, skipped, opens, rfl⟩ := (fromSection_eq_ok ending).1 begun
    cases read
    have whole : skipBlank tokens = listing :: behind.takeWhile isListed ++ behind.dropWhile isListed :=
      skipped.trans (congrArg _ List.takeWhile_append_dropWhile.symm)
    obtain ⟨taken, split, same⟩ := split_of_skipBlank _ whole
    refine ⟨taken, split, listing, significant (behind.takeWhile isListed), ?_, opens, ?_, ?_⟩
    · rw [same, significant_cons (isBlank_of_skipBlank skipped)]
    · intro token member
      rw [← filter_listed] at member
      exact eq_of_beq (List.mem_filter.1 member).2
    · rw [← filter_listed]
      rfl
  accepts tokens phrase more extensions lexed split starts listing := by
    obtain ⟨listing, names, rfl, opens, named, rfl⟩ := listing
    obtain ⟨behind, skipped, after⟩ := skipBlank_of_significant split
    have same : significant (behind.takeWhile isListed) ++ significant (behind.dropWhile isListed) =
        names ++ more := by
      rw [← significant_append, List.takeWhile_append_dropWhile]
      exact after
    obtain ⟨taken, left⟩ := unique_run (p := (·.kind == .name))
      (fun token member => by
        rw [← filter_listed] at member
        exact (List.mem_filter.1 member).2)
      (stops_of_starts (starts_unlisted behind)) (fun token member => beq_iff_eq.2 (named token member))
      (stops_of_starts starts) same
    refine ⟨behind.dropWhile isListed, bind_eq_ok.2 ⟨_, (fromSection_eq_ok ending).2
      ⟨listing, behind, skipped, opens, rfl⟩, ?_⟩, left⟩
    rw [← taken, ← filter_listed]
    rfl

def IsExpression (header : String) (phrase : List Token) (expression : Expression) : Prop :=
  ∃ sections, Grammar.AreSections header phrase sections ∧ sections.flatten ≠ [] ∧
    expression = ⟨sections.flatten⟩

theorem recognizes_expression :
    RecognizesBefore (Closes header) (expression ending header) (IsExpression header) where
  takes tokens value rest lexed read := by
    obtain ⟨found, begun, read⟩ := bind_eq_ok.1 read
    obtain ⟨opening, behind, skipped, opens, rfl⟩ := (fromSection_eq_ok ending).1 begun
    obtain ⟨⟨lines, left⟩, repeats, read⟩ := bind_eq_ok.1 read
    dsimp only at read
    split at read
    next nothing => cases read
    next something =>
      cases read
      obtain ⟨front, sections, cut, areSections, rfl⟩ :=
        takes_sections ending (skipped ▸ lexed.skipBlank) (skipped ▸ ready_skipBlank tokens) repeats
      obtain ⟨taken, split, same⟩ := split_of_skipBlank _ (skipped.trans cut)
      refine ⟨taken, split, sections, same ▸ areSections, ?_, rfl⟩
      rintro nothing
      exact something (List.isEmpty_iff.2 nothing)
  accepts tokens phrase more value lexed split starts isExpression := by
    obtain ⟨sections, areSections, filled, rfl⟩ := isExpression
    cases areSections with
    | none => exact absurd rfl filled
    | next opens inside others =>
      obtain ⟨behind, skipped, after⟩ := skipBlank_of_significant split
      have ready := skipped ▸ ready_skipBlank tokens
      obtain ⟨rest, repeats, left⟩ := accepts_sections ending (skipped ▸ lexed.skipBlank) ready
        ((significant_of_ready ready).trans (congrArg _ after)) (.next opens inside others) starts
      refine ⟨rest, bind_eq_ok.2 ⟨_, (fromSection_eq_ok ending).2
        ⟨_, behind, skipped, opens, rfl⟩, bind_eq_ok.2 ⟨_, repeats, ?_⟩⟩, left⟩
      dsimp only
      rw [if_neg fun nothing => filled (List.isEmpty_iff.1 nothing)]
      rfl

theorem isText_iff : Grammar.IsText tokens ↔ ∀ token ∈ tokens, (token.kind != .header) = true := by
  simp only [Grammar.IsText, bne_iff_ne]

theorem stops_of_titled {first : Token} (titled : first.kind = .header) :
    ∀ token more, first :: rest = token :: more → (token.kind != .header) = false := by
  rintro token more ⟨⟩
  rw [titled]
  rfl

theorem messageText_eq_ok {message : String} :
    messageText ending tokens = .ok message ↔
      ∃ opening text, skipBlank tokens = opening :: text ∧ Grammar.IsHeader opening "message:" ∧
        Grammar.IsText text ∧ message = Derivation.textOf text := by
  constructor
  · intro read
    obtain ⟨found, begun, read⟩ := bind_eq_ok.1 read
    obtain ⟨opening, text, skipped, opens, rfl⟩ := (fromSection_eq_ok ending).1 begun
    dsimp only [List.tail_cons] at read
    split at read
    next bound =>
      have isText := List.dropWhile_eq_nil_iff.1 bound
      refine ⟨opening, text, skipped, opens, isText_iff.2 isText, ?_⟩
      rw [← Except.ok.inj read, sectionText, List.takeWhile_eq_self_iff.2 isText]
      rfl
    next => cases read
  · rintro ⟨opening, text, skipped, opens, isText, rfl⟩
    refine bind_eq_ok.2 ⟨_, (fromSection_eq_ok ending).2 ⟨opening, text, skipped, opens, rfl⟩, ?_⟩
    dsimp only [List.tail_cons]
    rw [nextSection, List.dropWhile_eq_nil_iff.2 (isText_iff.1 isText), sectionText,
      List.takeWhile_eq_self_iff.2 (isText_iff.1 isText)]
    rfl

/-- The parts of a rule behind its comment are read one after the other. -/
def Reads (tokens : List Token) (rule : TopicLint.Rule) : Prop :=
  ∃ second third fourth fifth,
    ruleType ending tokens = .ok (rule.severity, second) ∧
    extensionList ending second = .ok (rule.extensions, third) ∧
    expression ending "when:" third = .ok (rule.condition, fourth) ∧
    expression ending "test:" fourth = .ok (rule.test, fifth) ∧
    messageText ending fifth = .ok rule.message

theorem ruleOf_eq_ok {file : String} {rule : TopicLint.Rule} :
    ruleOf ending file tokens = .ok rule ↔
      rule.source = file ∧ rule.description = (comment tokens).1 ∧
        Reads ending (comment tokens).2 rule := by
  unfold ruleOf
  constructor
  · intro read
    obtain ⟨⟨severity, second⟩, typed, read⟩ := bind_eq_ok.1 read
    obtain ⟨⟨extensions, third⟩, listed, read⟩ := bind_eq_ok.1 read
    obtain ⟨⟨condition, fourth⟩, conditional, read⟩ := bind_eq_ok.1 read
    obtain ⟨⟨test, fifth⟩, testing, read⟩ := bind_eq_ok.1 read
    obtain ⟨message, said, read⟩ := bind_eq_ok.1 read
    cases read
    exact ⟨rfl, rfl, second, third, fourth, fifth, typed, listed, conditional, testing, said⟩
  · rintro ⟨rfl, described, second, third, fourth, fifth, typed, listed, conditional, testing, said⟩
    refine bind_eq_ok.2 ⟨_, typed, bind_eq_ok.2 ⟨_, listed, bind_eq_ok.2 ⟨_, conditional,
      bind_eq_ok.2 ⟨_, testing, bind_eq_ok.2 ⟨_, said, ?_⟩⟩⟩⟩⟩
    exact congrArg (fun description => Except.ok { rule with description }) described.symm

end Parts

section Rules

variable (ending : Token) {tokens phrase : List Token} {rule : TopicLint.Rule} {d e : Derivation}

/-- What a derivation says of a rule whose comment is known. -/
theorem derives_of_reads (lexed : Lexed tokens) (reads : Reads ending tokens rule)
    (comment : Option (List Token)) :
    ∃ d, Grammar.IsRule tokens d ∧ d.comment = comment ∧ d.rule rule.source =
      { rule with description := (comment.map Derivation.textOf).filter (! ·.isEmpty) } := by
  obtain ⟨second, third, fourth, fifth, typed, listed, conditional, testing, said⟩ := reads
  obtain ⟨one, rfl, opening, word, gravity, opens, named⟩ :=
    (recognizes_ruleType ending).takes _ _ _ lexed typed
  obtain ⟨two, rfl, listing, names, listings, lists, belong, values⟩ :=
    (recognizes_extensionList ending).takes _ _ _ lexed.split.2 listed
  obtain ⟨three, rfl, conditions, whens, filled, same⟩ :=
    (recognizes_expression ending).takes _ _ _ lexed.split.2.split.2 conditional
  obtain ⟨four, rfl, tests, checks, filled', same'⟩ :=
    (recognizes_expression ending).takes _ _ _ lexed.split.2.split.2.split.2 testing
  obtain ⟨header, text, skipped, closes, isText, message⟩ := (messageText_eq_ok ending).1 said
  obtain ⟨five, rfl, blank⟩ := split_of_skipBlank [] skipped
  refine ⟨⟨comment, rule.severity, rule.extensions, conditions, tests, text⟩, ?_, rfl, ?_⟩
  · have inside : significant (one ++ (two ++ (three ++ (four ++ five)))) =
        opening :: word :: listing :: (names ++ (significant three ++ significant four)) := by
      simp only [significant_append, gravity, listings, blank]
      simp [significant]
    have cut : one ++ (two ++ (three ++ (four ++ (five ++ header :: text)))) =
        one ++ (two ++ (three ++ (four ++ five))) ++ header :: text := by
      simp only [List.append_assoc]
    rw [cut]
    refine .stated (d := ⟨comment, _, _, _, _, text⟩) ?_ closes isText
    rw [inside]
    exact .parts opens named lists belong values whens filled checks filled'
  · rw [Derivation.rule, ← same, ← same', ← message]

theorem unique_message {front back text other : List Token} {header closing : Token}
    (isText : Grammar.IsText text) (closes : header.kind = .header) (isText' : Grammar.IsText other)
    (closes' : closing.kind = .header)
    (same : front ++ header :: text = back ++ closing :: other) :
    front = back ∧ header = closing ∧ text = other := by
  have mirrored := congrArg List.reverse same
  simp only [List.reverse_append, List.reverse_cons, List.append_assoc, List.singleton_append]
    at mirrored
  obtain ⟨texts, behind⟩ := unique_run (p := (·.kind != .header))
    (fun token member => isText_iff.1 isText token (List.mem_reverse.1 member)) (stops_of_titled closes)
    (fun token member => isText_iff.1 isText' token (List.mem_reverse.1 member)) (stops_of_titled closes')
    mirrored
  obtain ⟨marks, fronts⟩ := List.cons.inj behind
  exact ⟨List.reverse_inj.1 fronts, marks, List.reverse_inj.1 texts⟩

/-- Sections that are not empty begin with their header, which closes the sections before. -/
theorem closes_of_areSections {header before : String} {sections : List (List (List Predicate))}
    (areSections : Grammar.AreSections header phrase sections) (filled : sections.flatten ≠ [])
    (apart : header ≠ before) (more : List Token) : Starts (Closes before) (phrase ++ more) := by
  cases areSections with
  | none => exact absurd rfl filled
  | next opens =>
    rintro _ _ ⟨⟩
    exact ⟨opens.1, fun same => apart (opens.2.symm.trans same)⟩

theorem isBlank_of_header {token : Token} (titled : token.kind = .header) : token.isBlank = false := by
  unfold Token.isBlank
  rw [titled]
  rfl

theorem isText_of_significant {text : List Token} (same : significant tokens = significant text)
    (isText : Grammar.IsText text) : Grammar.IsText tokens := by
  intro token member titled
  have solid : token ∈ significant tokens :=
    List.mem_filter.2 ⟨member, by simp [isBlank_of_header titled]⟩
  rw [same] at solid
  exact isText token (List.mem_filter.1 solid).1 titled

theorem reads_of_isRule (lexed : Lexed tokens) (isRule : Grammar.IsRule tokens d) (file : String) :
    Reads ending tokens (d.rule file) := by
  cases isRule with
  | @stated body header _ inside closes wording =>
    generalize phrased : significant body = phrase at inside
    cases inside with
    | @parts opening word listing names whens tests _ opens grave lists named listed condition
        conditional test testing =>
      have titled : significant (header :: d.message) = header :: significant d.message :=
        significant_cons (isBlank_of_header closes.1)
      have whole : significant (body ++ header :: d.message) = [opening, word] ++
          (listing :: names ++ (whens ++ (tests ++ header :: significant d.message))) := by
        rw [significant_append, phrased, titled]
        simp
      have bound : Starts (fun token => token.kind = .header) (header :: significant d.message) := by
        rintro _ _ ⟨⟩
        exact closes.1
      have closing : Starts (Closes "test:") (header :: significant d.message) := by
        rintro _ _ ⟨⟩
        exact ⟨closes.1, by rw [closes.2]; decide⟩
      have namesOver : Starts (fun token => token.kind ≠ .name)
          (whens ++ (tests ++ header :: significant d.message)) :=
        (starts_of_areSections condition (starts_of_areSections test bound)).imp fun token titled => by
          rw [titled]
          decide
      obtain ⟨one, second, cut, typed, left, lexed⟩ :=
        ((recognizes_ruleType ending).before fun _ => True).reads lexed whole
          (fun _ _ _ => trivial) ⟨opening, word, rfl, opens, grave⟩
      obtain ⟨two, third, rfl, listings, left, lexed⟩ :=
        (recognizes_extensionList ending).reads lexed left namesOver
          ⟨listing, names, rfl, lists, named, listed⟩
      obtain ⟨three, fourth, rfl, conditioned, left, lexed⟩ :=
        (recognizes_expression ending).reads lexed left
          (closes_of_areSections test testing (by decide) _) ⟨d.conditions, condition, conditional, rfl⟩
      obtain ⟨four, fifth, rfl, tested, left, lexed⟩ :=
        (recognizes_expression ending).reads lexed left closing ⟨d.tests, test, testing, rfl⟩
      -- So far the rest is known without its blanks only. The last header of all tokens tells where
      -- the message begins.
      obtain ⟨text, skipped, same⟩ := skipBlank_of_significant left
      obtain ⟨blanks, -, cut'⟩ := exists_blanks fifth
      have isText := isText_of_significant same wording
      have message : text = d.message := by
        rw [cut', skipped] at cut
        simp only [← List.append_assoc] at cut
        exact (unique_message wording closes.1 isText closes.1 cut).2.2.symm
      exact ⟨_, _, _, fifth, typed, listings, conditioned, tested,
        (messageText_eq_ok ending).2 ⟨header, text, skipped, closes, isText, by rw [message]; rfl⟩⟩

theorem name_injective {severity other : Severity} (same : severity.name = other.name) :
    severity = other := by
  rw [← Option.some_inj, ← Severity.ofName?_name, same, Severity.ofName?_name]

theorem unique_body {other : List Token} (lexed : Lexed phrase) (solid : Solid phrase)
    (first : Grammar.IsBody phrase d) (second : Grammar.IsBody other e) (same : phrase = other)
    (comment : d.comment = e.comment) (message : d.message = e.message) : d = e := by
  cases first with
  | @parts _ word _ names whens tests _ _ grave _ named listed condition conditional test testing =>
    cases second with
    | @parts _ _ _ others whens' tests' _ _ grave' _ named' listed' condition' conditional' test'
        testing' =>
      simp only [List.cons.injEq] at same
      obtain ⟨rfl, rfl, rfl, behind⟩ := same
      have lexed' : Lexed (whens ++ tests) := lexed.tail.tail.tail.split.2
      have solid' : Solid (whens ++ tests) := solid.tail.tail.tail.behind
      have bound := (closes_of_areSections condition conditional (by decide : _ ≠ "test:") tests).imp
        fun token closes => (by rw [closes.1]; decide : token.kind ≠ .name)
      have bound' := (closes_of_areSections condition' conditional' (by decide : _ ≠ "test:") tests').imp
        fun token closes => (by rw [closes.1]; decide : token.kind ≠ .name)
      obtain ⟨rfl, sections⟩ := unique_run (p := (·.kind == .name))
        (fun token member => beq_iff_eq.2 (named token member)) (stops_of_starts bound)
        (fun token member => beq_iff_eq.2 (named' token member)) (stops_of_starts bound') behind
      have closing : Starts (Closes "when:") tests := by
        simpa using closes_of_areSections test testing (by decide) []
      have closing' : Starts (Closes "when:") tests' := by
        simpa using closes_of_areSections test' testing' (by decide) []
      obtain ⟨conditions, rfl⟩ :=
        unique_sections lexed' solid' condition closing condition' closing' sections
      have nothing : Starts (Closes "test:") [] := fun _ _ split => nomatch split
      rw [← List.append_nil tests] at lexed' solid'
      obtain ⟨checks, -⟩ :=
        unique_sections lexed'.split.2 solid'.behind test nothing test' nothing rfl
      exact Derivation.ext comment (name_injective (grave.2.symm.trans grave'.2))
        (listed.symm.trans listed') conditions checks message

theorem unique_rule {other : List Token} (lexed : Lexed tokens) (first : Grammar.IsRule tokens d)
    (second : Grammar.IsRule other e) (same : tokens = other) (comment : d.comment = e.comment) :
    d = e := by
  cases first with
  | stated inside closes text =>
    cases second with
    | stated inside' closes' text' =>
      obtain ⟨rfl, -, message⟩ := unique_message text closes.1 text' closes'.1 same
      exact unique_body lexed.split.1.significant (solid_significant _) inside inside' rfl comment
        message

theorem comment_plain
    (apart : Starts (fun token => ¬Grammar.IsHeader token "comment:") (skipBlank tokens)) :
    comment tokens = (none, skipBlank tokens) := by
  unfold comment
  split
  next nothing => rw [nothing]
  next token rest skipped =>
    rw [if_neg fun opens => apart token rest skipped (isSection_iff.1 opens), skipped]

theorem filter_described (text : String) :
    (if text.isEmpty then none else some text) = (some text).filter (! ·.isEmpty) := by
  rw [Option.filter_some]
  cases text.isEmpty <;> rfl

theorem comment_titled {opening : Token} {behind : List Token}
    (skipped : skipBlank tokens = opening :: behind) (opens : Grammar.IsHeader opening "comment:") :
    comment tokens =
      (((some (behind.takeWhile (·.kind != .header))).map Derivation.textOf).filter (! ·.isEmpty),
        nextSection behind) := by
  unfold comment
  rw [skipped]
  dsimp only
  rw [if_pos (isSection_iff.2 opens)]
  exact congrArg (·, nextSection behind) (filter_described _)

theorem opens_of_isRule (isRule : Grammar.IsRule tokens d) :
    ∃ opening rest, skipBlank tokens = opening :: rest ∧ Grammar.IsHeader opening "rule:" := by
  cases isRule with
  | @stated body header _ inside closes wording =>
    generalize phrased : significant body = phrase at inside
    cases inside with
    | parts opens =>
      have whole := significant_append body (header :: d.message)
      rw [phrased] at whole
      obtain ⟨rest, skipped, -⟩ := skipBlank_of_significant whole
      exact ⟨_, rest, skipped, opens⟩

theorem skipBlank_titled {blanks behind : List Token} {opening : Token}
    (blank : ∀ token ∈ blanks, token.isBlank = true) (titled : opening.kind = .header) :
    skipBlank (blanks ++ opening :: behind) = opening :: behind :=
  (run_eq blank (by rintro _ _ ⟨⟩; exact isBlank_of_header titled)).2

/-- A rule file without a comment does not start with one. -/
theorem skipBlank_ne_of_isRule {opening : Token} {rest : List Token} (isRule : Grammar.IsRule tokens d)
    (opens : Grammar.IsHeader opening "comment:") : skipBlank tokens ≠ opening :: rest := by
  intro skipped
  obtain ⟨first, others, skipped', opens'⟩ := opens_of_isRule isRule
  rw [skipped] at skipped'
  cases skipped'
  exact absurd (opens.2.symm.trans opens'.2) (by decide)

theorem unique_derivation {other : List Token} (lexed : Lexed tokens) (first : Grammar.Derives tokens d)
    (second : Grammar.Derives other e) (same : tokens = other) : d = e := by
  cases first with
  | plain without rule =>
    cases second with
    | plain without' rule' => exact unique_rule lexed rule rule' same (without.trans without'.symm)
    | commented blank opens =>
      subst same
      exact absurd (skipBlank_titled blank opens.1) (skipBlank_ne_of_isRule rule opens)
  | commented blank opens within isText titled rule =>
    cases second with
    | plain without' rule' =>
      subst same
      exact absurd (skipBlank_titled blank opens.1) (skipBlank_ne_of_isRule rule' opens)
    | commented blank' opens' within' isText' titled' rule' =>
      have behind := congrArg skipBlank same
      rw [skipBlank_titled blank opens.1, skipBlank_titled blank' opens'.1] at behind
      obtain ⟨rfl, inner⟩ := List.cons.inj behind
      obtain ⟨rfl, left⟩ := unique_run (isText_iff.1 isText) (stops_of_titled titled)
        (isText_iff.1 isText') (stops_of_titled titled') inner
      exact unique_rule lexed.split.2.tail.split.2 rule rule' left (within.trans within'.symm)

theorem reads_skipBlank : Reads ending (skipBlank tokens) rule ↔ Reads ending tokens rule := by
  have ready : skipBlank (skipBlank tokens) = skipBlank tokens := ready_skipBlank tokens
  unfold Reads ruleType fromSection
  rw [ready]

theorem ruleOf_eq_ok_iff {file : String} (lexed : Lexed tokens) :
    ruleOf ending file tokens = .ok rule ↔ ∃ d, Grammar.Derives tokens d ∧ d.rule file = rule := by
  constructor
  · intro read
    obtain ⟨rfl, described, reads⟩ := (ruleOf_eq_ok ending).1 read
    by_cases titled : ∃ opening behind, skipBlank tokens = opening :: behind ∧
        Grammar.IsHeader opening "comment:"
    · obtain ⟨opening, behind, skipped, opens⟩ := titled
      obtain ⟨blanks, blank, split⟩ := exists_blanks tokens
      rw [comment_titled skipped opens] at described reads
      have cut : behind.takeWhile (·.kind != .header) ++ nextSection behind = behind :=
        List.takeWhile_append_dropWhile
      have lexed' : Lexed behind := (skipped ▸ lexed.skipBlank).tail
      obtain ⟨d, isRule, within, states⟩ := derives_of_reads ending (cut ▸ lexed').split.2 reads
        (some (behind.takeWhile (·.kind != .header)))
      dsimp only at described
      refine ⟨d, ?_, by rw [states, ← described]⟩
      cases left : nextSection behind with
      | nil =>
        obtain ⟨first, others, nothing, -⟩ := opens_of_isRule isRule
        rw [left] at nothing
        exact absurd nothing (List.cons_ne_nil first others).symm
      | cons first rest =>
        have titled : first.kind = .header := by simpa using stops_dropWhile _ _ _ left
        rw [split, skipped, ← cut, left]
        refine .commented blank opens within ?_ titled (left ▸ isRule)
        exact isText_iff.2 fun token member => List.all_eq_true.1 List.all_takeWhile token member
    · have apart : Starts (fun token => ¬Grammar.IsHeader token "comment:") (skipBlank tokens) :=
        fun opening behind skipped opens => titled ⟨opening, behind, skipped, opens⟩
      rw [comment_plain apart] at described reads
      obtain ⟨d, isRule, without, states⟩ :=
        derives_of_reads ending lexed ((reads_skipBlank ending).1 reads) none
      dsimp only at described
      refine ⟨d, .plain without isRule, ?_⟩
      rw [states, Option.map_none, Option.filter_none, ← described]
  · rintro ⟨d, derives, rfl⟩
    refine (ruleOf_eq_ok ending).2 ⟨rfl, ?_⟩
    cases derives with
    | plain without isRule =>
      rw [comment_plain fun opening behind skipped opens => skipBlank_ne_of_isRule isRule opens skipped]
      refine ⟨?_, (reads_skipBlank ending).2 (reads_of_isRule ending lexed isRule file)⟩
      rw [Derivation.rule, without]
      rfl
    | commented blank opens within isText titled isRule =>
      obtain ⟨taken, left⟩ := run_eq (isText_iff.1 isText) (stops_of_titled titled)
      rw [comment_titled (skipBlank_titled blank opens.1) opens, taken, nextSection, left]
      refine ⟨?_, reads_of_isRule ending lexed.split.2.tail.split.2 isRule file⟩
      rw [Derivation.rule, within]

end Rules

theorem lexed_bodyTokens (source : String) : Lexed (bodyTokens source) :=
  fun _ => allows_of_mem_bodyTokens

theorem compile_eq_ok {file source : String} {rule : TopicLint.Rule} :
    compile file source = .ok rule ↔ ruleOf (endToken source) file (bodyTokens source) = .ok rule := by
  unfold compile
  cases ruleOf (endToken source) file (bodyTokens source) with
  | error fault => exact ⟨fun done => (nomatch done), fun done => (nomatch done)⟩
  | ok value =>
    constructor
    · intro done
      rw [← Except.ok.inj done]
    · intro done
      rw [← Except.ok.inj done]

/-- The compiler accepts the sources whose tokens have a derivation, and no others; it returns the
rule that the derivation states, and the derivation is the only one. -/
theorem compile_eq_ok_iff_derives (file source : String) :
    (∀ rule, compile file source = .ok rule ↔
      ∃ d, Grammar.Derives (bodyTokens source) d ∧ d.rule file = rule) ∧
    ∀ d e, Grammar.Derives (bodyTokens source) d → Grammar.Derives (bodyTokens source) e → d = e :=
  ⟨fun _ => compile_eq_ok.trans (ruleOf_eq_ok_iff _ (lexed_bodyTokens source)),
    fun _ _ first second => unique_derivation (lexed_bodyTokens source) first second rfl⟩

end TopicLint.Rule
