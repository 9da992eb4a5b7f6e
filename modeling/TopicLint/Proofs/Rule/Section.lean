import TopicLint.Proofs.Rule.Recognition

/-! The loops of the compiler. Lines, expressions and repeated sections are read as long as the next
token says so; they take phrases of the grammar, and all of a phrase if the token behind it does not
go on with it. The token behind a phrase is looked at, so blanks behind the phrase are taken too. -/

namespace TopicLint.Rule

def Ready (tokens : List Token) : Prop := skipBlank tokens = tokens

/-- The first of the tokens, if there is one, is as it should be. -/
def Starts (good : Token → Prop) (tokens : List Token) : Prop :=
  ∀ token rest, tokens = token :: rest → good token

section Ready

variable {tokens rest more : List Token} {token : Token}

theorem ready_skipBlank (tokens : List Token) : Ready (skipBlank tokens) := by
  cases found : skipBlank tokens with
  | nil => rfl
  | cons token rest => exact List.dropWhile_cons_of_neg (by simp [isBlank_of_skipBlank found])

theorem significant_of_ready (ready : Ready (token :: rest)) :
    significant (token :: rest) = token :: significant rest :=
  significant_cons (isBlank_of_skipBlank ready)

theorem split_of_ready (ready : Ready tokens) (found : significant tokens = token :: more) :
    ∃ rest, tokens = token :: rest ∧ significant rest = more := by
  obtain ⟨rest, skipped, behind⟩ := skipBlank_of_significant found
  exact ⟨rest, ready.symm.trans skipped, behind⟩

theorem starts_of_ready {good : Token → Prop} (ready : Ready tokens)
    (starts : Starts good (significant tokens)) : Starts good tokens := by
  rintro token rest rfl
  exact starts token _ (significant_of_ready ready)

end Ready

section Steps

variable (ending : Token) {tokens between more rest : List Token} {token : Token} {header : String}
  {predicate : Predicate} {predicates : List Predicate} {lines others : List (List Predicate)}

theorem conjunction_last (read : term ending tokens = .ok (predicate, between))
    (apart : Starts (fun token => ¬Grammar.IsName token "and") (skipBlank between)) :
    conjunction ending tokens = .ok ([predicate], skipBlank between) := by
  rw [conjunction]
  split
  next fault refused =>
    rw [read] at refused
    cases refused
  next read' =>
    rw [read] at read'
    cases read'
    split
    next nothing => rw [nothing]
    next token more found =>
      rw [if_neg fun joins => apart token more found (isWord_iff.1 joins), found]

theorem conjunction_joined (read : term ending tokens = .ok (predicate, between))
    (found : skipBlank between = token :: more) (joins : Grammar.IsName token "and")
    (later : conjunction ending more = .ok (predicates, rest)) :
    conjunction ending tokens = .ok (predicate :: predicates, rest) := by
  rw [conjunction]
  split
  next fault refused =>
    rw [read] at refused
    cases refused
  next read' =>
    rw [read] at read'
    cases read'
    split
    next nothing =>
      rw [found] at nothing
      cases nothing
    next found' =>
      rw [found] at found'
      cases found'
      rw [if_pos (isWord_iff.2 joins), later]

theorem conjunctions_none (ends : Starts (fun token => token.kind ≠ .name) tokens) :
    conjunctions ending tokens = .ok ([], tokens) := by
  cases tokens with
  | nil => rw [conjunctions]
  | cons token more => rw [conjunctions, if_neg (by simpa using ends token more rfl)]

theorem conjunctions_next (named : token.kind = .name)
    (first : conjunction ending (token :: more) = .ok (predicates, between))
    (later : conjunctions ending between = .ok (lines, rest)) :
    conjunctions ending (token :: more) = .ok (predicates :: lines, rest) := by
  rw [conjunctions, if_pos (by simpa using named)]
  split
  next fault refused =>
    rw [first] at refused
    cases refused
  next read =>
    rw [first] at read
    cases read
    rw [later]

theorem isSection_iff : token.isSection header = true ↔ Grammar.IsHeader token header := by
  simp [Token.isSection, Grammar.IsHeader]

theorem repeated_none (ends : Starts (fun token => ¬Grammar.IsHeader token header) tokens) :
    repeated ending header tokens = .ok ([], tokens) := by
  cases tokens with
  | nil => rw [repeated]
  | cons token more => rw [repeated, if_neg fun opens => ends token more rfl (isSection_iff.1 opens)]

theorem repeated_next (opens : Grammar.IsHeader token header)
    (inside : conjunctions ending (skipBlank more) = .ok (lines, between))
    (later : repeated ending header between = .ok (others, rest)) :
    repeated ending header (token :: more) = .ok (lines ++ others, rest) := by
  rw [repeated, if_pos (isSection_iff.2 opens)]
  split
  next fault refused =>
    rw [inside] at refused
    cases refused
  next read =>
    rw [inside] at read
    cases read
    rw [later]

end Steps

section Sound

variable (ending : Token) {tokens rest : List Token} {header : String}
  {predicates : List Predicate} {lines : List (List Predicate)}

theorem takes_line (lexed : Lexed tokens)
    (read : conjunction ending tokens = .ok (predicates, rest)) :
    ∃ taken, tokens = taken ++ rest ∧ Grammar.IsLine (significant taken) predicates ∧ Ready rest := by
  fun_induction conjunction ending tokens generalizing predicates rest with
  | case1 => cases read
  | case2 tokens predicate between first shorter found =>
    cases read
    obtain ⟨taken, rfl, isTerm⟩ := (recognizes_term ending).takes _ _ _ lexed first
    obtain ⟨blanks, split, nothing⟩ := split_of_skipBlank [] found
    refine ⟨taken ++ blanks, by rw [split, List.append_assoc], ?_, rfl⟩
    rw [significant_append, nothing]
    exact .last ((List.append_nil _).symm ▸ isTerm)
  | case3 => cases read
  | case4 tokens predicate between first shorter token more found less joins others after later ih =>
    cases read
    obtain ⟨taken, rfl, isTerm⟩ := (recognizes_term ending).takes _ _ _ lexed first
    obtain ⟨blanks, rfl, same⟩ := split_of_skipBlank [token] found
    obtain ⟨line, rfl, isLine, ready⟩ := ih lexed.split.2.split.2 later
    refine ⟨taken ++ (blanks ++ line), by simp only [List.append_assoc], ?_, ready⟩
    rw [significant_append, significant_append, same, significant_cons (isBlank_of_skipBlank found)]
    exact .joined isTerm (isWord_iff.1 joins) isLine
  | case5 tokens predicate between first shorter token more found less apart =>
    cases read
    obtain ⟨taken, rfl, isTerm⟩ := (recognizes_term ending).takes _ _ _ lexed first
    obtain ⟨blanks, split, nothing⟩ := split_of_skipBlank [] found
    refine ⟨taken ++ blanks, by rw [split, List.append_assoc], ?_, found ▸ ready_skipBlank between⟩
    rw [significant_append, nothing]
    exact .last ((List.append_nil _).symm ▸ isTerm)

theorem takes_lines (lexed : Lexed tokens) (ready : Ready tokens)
    (read : conjunctions ending tokens = .ok (lines, rest)) :
    ∃ taken, tokens = taken ++ rest ∧ Grammar.AreLines (significant taken) lines ∧ Ready rest := by
  fun_induction conjunctions ending tokens generalizing lines rest with
  | case1 =>
    cases read
    exact ⟨[], rfl, .none, rfl⟩
  | case2 => cases read
  | case3 => cases read
  | case4 token more named line between first shorter others after later ih =>
    cases read
    obtain ⟨taken, split, isLine, ready'⟩ := takes_line ending lexed first
    rw [split] at lexed
    obtain ⟨behind, rfl, areLines, ready''⟩ := ih lexed.split.2 ready' later
    refine ⟨taken ++ behind, by rw [split, List.append_assoc], ?_, ready''⟩
    rw [significant_append]
    exact .next isLine areLines
  | case5 token more unnamed =>
    cases read
    exact ⟨[], rfl, .none, ready⟩

theorem takes_sections (lexed : Lexed tokens) (ready : Ready tokens)
    (read : repeated ending header tokens = .ok (lines, rest)) :
    ∃ taken sections, tokens = taken ++ rest ∧
      Grammar.AreSections header (significant taken) sections ∧ sections.flatten = lines := by
  fun_induction repeated ending header tokens generalizing lines rest with
  | case1 =>
    cases read
    exact ⟨[], [], rfl, .none, rfl⟩
  | case2 => cases read
  | case3 => cases read
  | case4 token more opens inside between first shorter less others after later ih =>
    cases read
    obtain ⟨front, split, areLines, ready'⟩ :=
      takes_lines ending lexed.tail.skipBlank (ready_skipBlank more) first
    obtain ⟨taken, rfl, same⟩ := split_of_skipBlank _ split
    obtain ⟨behind, sections, rfl, areSections, rfl⟩ := ih lexed.tail.split.2 ready' later
    refine ⟨token :: (taken ++ behind), inside :: sections, ?_, ?_, rfl⟩
    · rw [List.cons_append, List.append_assoc]
    · rw [significant_cons (isBlank_of_skipBlank ready), significant_append, same]
      exact .next (isSection_iff.1 opens) areLines areSections
  | case5 token more closed =>
    cases read
    exact ⟨[], [], rfl, .none, rfl⟩

end Sound

section Complete

variable (ending : Token) {tokens phrase more : List Token} {header : String}

theorem Starts.imp {good fine : Token → Prop} (starts : Starts good tokens)
    (weaker : ∀ token, good token → fine token) : Starts fine tokens :=
  fun token rest split => weaker token (starts token rest split)

theorem head_of_isTerm {predicate : Predicate} (isTerm : Grammar.IsTerm phrase predicate) :
    ∃ token rest, phrase = token :: rest ∧ token.kind = .name ∧ token.value ≠ "and" := by
  cases isTerm with
  | plain asked =>
    obtain ⟨token, rest, rfl, named, -, apart⟩ := head_of_isQuestion asked
    exact ⟨token, rest, rfl, named, apart⟩
  | negated negates => exact ⟨_, _, rfl, negates.1, by rw [negates.2]; decide⟩

theorem head_of_isLine {predicates : List Predicate} (isLine : Grammar.IsLine phrase predicates) :
    ∃ token rest, phrase = token :: rest ∧ token.kind = .name ∧ token.value ≠ "and" := by
  cases isLine with
  | last isTerm => exact head_of_isTerm isTerm
  | joined isTerm =>
    obtain ⟨token, rest, rfl, named, apart⟩ := head_of_isTerm isTerm
    exact ⟨token, _, rfl, named, apart⟩

/-- A line is over where lines and what follows them begin. -/
theorem starts_of_areLines {lines : List (List Predicate)} (areLines : Grammar.AreLines phrase lines)
    (ends : Starts (fun token => token.kind ≠ .name) more) :
    Starts (fun token => ¬Grammar.IsName token "and") (phrase ++ more) := by
  cases areLines with
  | none => exact ends.imp fun token unnamed joins => unnamed joins.1
  | next isLine =>
    obtain ⟨token, rest, rfl, -, apart⟩ := head_of_isLine isLine
    intro first others split joins
    cases split
    exact apart joins.2

theorem accepts_line {predicates : List Predicate} (lexed : Lexed tokens)
    (split : significant tokens = phrase ++ more) (isLine : Grammar.IsLine phrase predicates)
    (ends : Starts (fun token => ¬Grammar.IsName token "and") more) :
    ∃ rest, conjunction ending tokens = .ok (predicates, rest) ∧ significant rest = more ∧
      Ready rest := by
  induction isLine generalizing tokens with
  | last isTerm =>
    obtain ⟨between, read, behind⟩ := (recognizes_term ending).accepts _ _ _ _ lexed split isTerm
    rw [← behind, ← significant_skipBlank] at ends
    have apart := starts_of_ready (ready_skipBlank between) ends
    exact ⟨_, conjunction_last ending read apart, (significant_skipBlank between).trans behind,
      ready_skipBlank between⟩
  | @joined phrase others joint predicate predicates isTerm joins isLine ih =>
    rw [List.append_assoc] at split
    obtain ⟨between, read, behind⟩ := (recognizes_term ending).accepts _ _ _ _ lexed split isTerm
    obtain ⟨after, found, left⟩ := skipBlank_of_significant behind
    obtain ⟨taken, rfl, -⟩ := (recognizes_term ending).takes _ _ _ lexed read
    have lexed' := lexed.split.2.skipBlank
    rw [found] at lexed'
    obtain ⟨rest, later, left', ready⟩ := ih lexed'.tail left
    exact ⟨rest, conjunction_joined ending read found joins later, left', ready⟩

theorem accepts_lines {lines : List (List Predicate)} (lexed : Lexed tokens) (ready : Ready tokens)
    (split : significant tokens = phrase ++ more) (areLines : Grammar.AreLines phrase lines)
    (ends : Starts (fun token => token.kind ≠ .name) more) :
    ∃ rest, conjunctions ending tokens = .ok (lines, rest) ∧ significant rest = more ∧
      Ready rest := by
  induction areLines generalizing tokens with
  | none =>
    rw [List.nil_append] at split
    have unnamed := starts_of_ready ready (split ▸ ends)
    exact ⟨tokens, conjunctions_none ending unnamed, split, ready⟩
  | next isLine others ih =>
    rw [List.append_assoc] at split
    obtain ⟨between, read, behind, ready'⟩ :=
      accepts_line ending lexed split isLine (starts_of_areLines others ends)
    obtain ⟨taken, cut, -, -⟩ := takes_line ending lexed read
    obtain ⟨rest, later, left, ready''⟩ := ih (cut ▸ lexed).split.2 ready' behind
    obtain ⟨token, after, rfl, named, -⟩ := head_of_isLine isLine
    obtain ⟨inside, rfl, -⟩ := split_of_ready ready split
    exact ⟨rest, conjunctions_next ending named read later, left, ready''⟩

/-- Behind a section stands a header: the one of the next section, or the one behind them all. -/
theorem starts_of_areSections {sections : List (List (List Predicate))}
    (areSections : Grammar.AreSections header phrase sections)
    (ends : Starts (fun token => token.kind = .header) more) :
    Starts (fun token => token.kind = .header) (phrase ++ more) := by
  cases areSections with
  | none => exact ends
  | next opens =>
    intro first others split
    cases split
    exact opens.1

def Closes (header : String) (token : Token) : Prop := token.kind = .header ∧ token.value ≠ header

theorem accepts_sections {sections : List (List (List Predicate))} (lexed : Lexed tokens)
    (ready : Ready tokens) (split : significant tokens = phrase ++ more)
    (areSections : Grammar.AreSections header phrase sections) (ends : Starts (Closes header) more) :
    ∃ rest, repeated ending header tokens = .ok (sections.flatten, rest) ∧
      significant rest = more := by
  induction areSections generalizing tokens with
  | none =>
    rw [List.nil_append] at split
    have other := starts_of_ready ready (split ▸ ends)
    exact ⟨tokens, repeated_none ending (other.imp fun token closes opens => closes.2 opens.2), split⟩
  | @next opening phrase others lines sections opens areLines areSections ih =>
    rw [List.cons_append, List.append_assoc] at split
    obtain ⟨inside, rfl, behind⟩ := split_of_ready ready split
    rw [← significant_skipBlank] at behind
    have ends' := starts_of_areSections areSections (ends.imp fun token closes => closes.1)
    obtain ⟨between, read, left, ready'⟩ :=
      accepts_lines ending lexed.tail.skipBlank (ready_skipBlank inside) behind areLines
        (ends'.imp fun token titled => by rw [titled]; decide)
    obtain ⟨taken, cut, -, -⟩ := takes_lines ending lexed.tail.skipBlank (ready_skipBlank inside) read
    obtain ⟨rest, later, left'⟩ := ih (cut ▸ lexed.tail.skipBlank).split.2 ready' left
    exact ⟨rest, repeated_next ending opens read later, left'⟩

end Complete

section Unique

variable {tokens one two rest left : List Token} {header : String}

def Solid (tokens : List Token) : Prop := ∀ token ∈ tokens, token.isBlank = false

theorem solid_significant (tokens : List Token) : Solid (significant tokens) := by
  intro token member
  simpa using (List.mem_filter.1 member).2

theorem Solid.tail {token : Token} (solid : Solid (token :: tokens)) : Solid tokens :=
  fun other member => solid other (List.mem_cons_of_mem _ member)

theorem Solid.behind (solid : Solid (one ++ rest)) : Solid rest :=
  fun token member => solid token (List.mem_append_right _ member)

theorem Solid.significant (solid : Solid tokens) : significant tokens = tokens :=
  List.filter_eq_self.2 fun token member => by simp [solid token member]

theorem Solid.ready (solid : Solid tokens) : Ready tokens := by
  cases tokens with
  | nil => rfl
  | cons token more => exact List.dropWhile_cons_of_neg (by simp [solid token List.mem_cons_self])

/-- The same tokens cannot be lines in two ways: the compiler would read them in both. -/
theorem unique_lines {lines others : List (List Predicate)} (lexed : Lexed (one ++ rest))
    (solid : Solid (one ++ rest)) (first : Grammar.AreLines one lines)
    (ends : Starts (fun token => token.kind ≠ .name) rest) (second : Grammar.AreLines two others)
    (ends' : Starts (fun token => token.kind ≠ .name) left) (same : one ++ rest = two ++ left) :
    lines = others ∧ rest = left := by
  obtain ⟨behind, read, cut, -⟩ :=
    accepts_lines (Token.ending 1) lexed solid.ready solid.significant first ends
  obtain ⟨behind', read', cut', -⟩ :=
    accepts_lines (Token.ending 1) lexed solid.ready (solid.significant.trans same) second ends'
  rw [read] at read'
  cases read'
  exact ⟨rfl, cut.symm.trans cut'⟩

theorem unique_sections {sections others : List (List (List Predicate))} (lexed : Lexed (one ++ rest))
    (solid : Solid (one ++ rest)) (first : Grammar.AreSections header one sections)
    (ends : Starts (Closes header) rest) (second : Grammar.AreSections header two others)
    (ends' : Starts (Closes header) left) (same : one ++ rest = two ++ left) :
    sections = others ∧ rest = left := by
  -- By induction on the first reading: the lines of a section leave the same tokens in both.
  induction first generalizing two others with
  | none =>
    cases second with
    | none => exact ⟨rfl, same⟩
    | next opens => exact absurd opens.2 (ends _ _ same).2
  | @next opening inside later lines sections opens areLines areSections ih =>
    cases second with
    | none => exact absurd opens.2 (ends' _ _ same.symm).2
    | @next _ _ _ _ _ _ areLines' areSections' =>
      rw [List.cons_append, List.cons_append, List.append_assoc, List.append_assoc] at same
      rw [List.cons_append, List.append_assoc] at lexed solid
      obtain ⟨rfl, inner⟩ := List.cons.inj same
      have bound := starts_of_areSections areSections (ends.imp fun token closes => closes.1)
      have bound' := starts_of_areSections areSections' (ends'.imp fun token closes => closes.1)
      obtain ⟨rfl, behind⟩ := unique_lines lexed.tail solid.tail areLines
        (bound.imp fun token titled => by rw [titled]; decide) areLines'
        (bound'.imp fun token titled => by rw [titled]; decide) inner
      obtain ⟨rfl, after⟩ := ih lexed.tail.split.2 solid.tail.behind areSections' behind
      exact ⟨rfl, after⟩

end Unique

end TopicLint.Rule
