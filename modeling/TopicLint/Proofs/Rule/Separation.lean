import TopicLint.Proofs.Rule.Derivation
import TopicLint.Proofs.Rule.Place

/-! What stands between the lines of an expression. A line is over where a name follows that does not join
it, so blanks of any kind part it from the next one; only a header needs a line break before it. -/

namespace TopicLint.Rule

/-- The phrases that state the lines of an expression, one after the other, with headers between them. -/
inductive Grammar.Spans (header : String) :
    List Token → List (List Token) → List (List Predicate) → Prop where
  | none : Spans header [] [] []
  | opening {opening : Token} {tokens : List Token} {spans : List (List Token)}
      {lines : List (List Predicate)} (opens : IsHeader opening header)
      (others : Spans header tokens spans lines) : Spans header (opening :: tokens) spans lines
  | line {span tokens : List Token} {spans : List (List Token)} {line : List Predicate}
      {lines : List (List Predicate)} (isLine : IsLine span line)
      (others : Spans header tokens spans lines) :
      Spans header (span ++ tokens) (span :: spans) (line :: lines)

namespace Grammar.Spans

variable {header : String} {tokens more span one two : List Token} {spans others : List (List Token)}
  {lines later : List (List Predicate)}

theorem append (first : Spans header tokens spans lines) (second : Spans header more others later) :
    Spans header (tokens ++ more) (spans ++ others) (lines ++ later) := by
  induction first with
  | none => exact second
  | opening opens _ ih => exact .opening opens ih
  | line isLine _ ih =>
    rw [List.append_assoc]
    exact .line isLine ih

theorem of_areLines (areLines : AreLines tokens lines) : ∃ spans, Spans header tokens spans lines := by
  induction areLines with
  | none => exact ⟨[], .none⟩
  | next isLine _ ih =>
    obtain ⟨spans, laid⟩ := ih
    exact ⟨_, .line isLine laid⟩

theorem of_areSections {sections : List (List (List Predicate))}
    (areSections : AreSections header tokens sections) :
    ∃ spans, Spans header tokens spans sections.flatten := by
  induction areSections with
  | none => exact ⟨[], .none⟩
  | next opens inside _ ih =>
    obtain ⟨first, laid⟩ := of_areLines inside
    obtain ⟨others, laid'⟩ := ih
    exact ⟨first ++ others, .opening opens (laid.append laid')⟩

/-- Only headers stand before the first line. -/
theorem first (laid : Spans header tokens (span :: spans) lines) : ∃ headers after line,
    tokens = headers ++ (span ++ after) ∧ (∀ token ∈ headers, IsHeader token header) ∧
      IsLine span line := by
  generalize listed : span :: spans = all at laid
  induction laid with
  | none => cases listed
  | @opening opening _ _ _ opens _ ih =>
    obtain ⟨headers, after, line, rfl, titled, isLine⟩ := ih listed
    exact ⟨opening :: headers, after, line, rfl, List.forall_mem_cons.2 ⟨opens, titled⟩, isLine⟩
  | @line _ after _ line _ isLine =>
    cases listed
    exact ⟨[], after, line, rfl, List.forall_mem_nil _, isLine⟩

/-- Only headers stand between two lines that follow each other. -/
theorem between {front behind : List (List Token)} (laid : Spans header tokens spans lines)
    (listed : spans = front ++ one :: two :: behind) : ∃ before headers after line line',
    tokens = before ++ (one ++ (headers ++ (two ++ after))) ∧ (∀ token ∈ headers, IsHeader token header) ∧
      IsLine one line ∧ IsLine two line' := by
  induction laid generalizing front with
  | none => exact absurd listed.symm (List.append_ne_nil_of_right_ne_nil _ (List.cons_ne_nil _ _))
  | @opening opening _ _ _ _ _ ih =>
    obtain ⟨before, headers, after, line, line', rfl, rest⟩ := ih listed
    exact ⟨opening :: before, headers, after, line, line', rfl, rest⟩
  | @line span _ _ line _ isLine others ih =>
    cases front with
    | nil =>
      cases listed
      obtain ⟨headers, after, line', rfl, titled, isLine'⟩ := others.first
      exact ⟨[], headers, after, line, line', rfl, titled, isLine, isLine'⟩
    | cons first front =>
      obtain ⟨-, listed'⟩ := List.cons.inj listed
      obtain ⟨before, headers, after, line, line', rfl, rest⟩ := ih listed'
      exact ⟨span ++ before, headers, after, line, line', (List.append_assoc ..).symm, rest⟩

end Grammar.Spans

section Places

variable {source : String} {before gap after tokens : List Token} {last first : Token}

/-- Behind a token that is not blank, the line breaks of a text are the tokens of this class. -/
theorem newline_mem_wording_iff (lexed : Lexed (last :: gap)) (solid : last.isBlank = false) :
    '\n' ∈ wording (last :: gap) ↔ ∃ token ∈ gap, token.kind = .newline := by
  have breaks (token : Token) (member : token ∈ last :: gap) :
      token.kind = .newline ↔ '\n' ∈ token.value.toList :=
    (Kind.Matches.allowed (lexed token member)).eq_newline_iff
  have other : last.kind ≠ .newline := by
    intro same
    rw [Token.isBlank, same] at solid
    exact absurd solid (by decide)
  rw [wording, List.mem_flatMap]
  constructor
  · rintro ⟨token, member, broken⟩
    have kind := (breaks token member).2 broken
    exact ⟨token, (List.mem_cons.1 member).resolve_left fun same => other (same ▸ kind), kind⟩
  · rintro ⟨token, member, kind⟩
    have inside := List.mem_cons_of_mem last member
    exact ⟨token, inside, (breaks token inside).1 kind⟩

/-- Significant tokens stand in the source with blanks around them. -/
theorem exists_gap {headers : List Token}
    (phrase : significant tokens = before ++ last :: (headers ++ first :: after)) :
    ∃ front gap behind, tokens = front ++ last :: (gap ++ first :: behind) ∧
      significant gap = headers ∧ last.isBlank = false := by
  obtain ⟨front, found, rfl, -, behind⟩ := List.filter_eq_append_iff.1 phrase
  obtain ⟨blanks, rest, rfl, -, solid, later⟩ := List.filter_eq_cons_iff.1 behind
  obtain ⟨gap, left, rfl, titled, next⟩ := List.filter_eq_append_iff.1 later
  obtain ⟨more, beyond, rfl, blank, -, -⟩ := List.filter_eq_cons_iff.1 next
  have nothing : significant more = [] := significant_blanks (by simpa using blank)
  refine ⟨front ++ blanks, gap ++ more, beyond, by simp, ?_, by simpa using solid⟩
  rw [significant_append, nothing, List.append_nil]
  exact titled

/-- A token stands on a later line than one before it just if a line break is between them. -/
theorem line_lt_iff (split : bodyTokens source = before ++ last :: (gap ++ first :: after))
    (solid : last.isBlank = false) : last.line < first.line ↔ ∃ token ∈ gap, token.kind = .newline := by
  have cut : bodyTokens source = (before ++ last :: gap) ++ first :: after := by
    rw [split, List.append_assoc, List.cons_append]
  have lexed : Lexed (last :: gap) := (cut ▸ lexed_bodyTokens source).split.1.split.2
  rw [(placed_bodyTokens split).1, (placed_bodyTokens cut).1, wording_append, lineBehind, lineBehind,
    List.count_append, ← newline_mem_wording_iff lexed solid, ← List.count_pos_iff]
  omega

/-- A header starts a line, so a line break stands before it. -/
theorem newline_of_header (split : bodyTokens source = before ++ last :: (gap ++ after))
    (solid : last.isBlank = false) (titled : ∃ token ∈ gap, token.kind = .header) :
    ∃ token ∈ gap, token.kind = .newline := by
  obtain ⟨header, member, titled⟩ := titled
  obtain ⟨one, two, rfl⟩ := List.append_of_mem member
  have cut : bodyTokens source = (before ++ last :: one) ++ header :: (two ++ after) := by
    rw [split]
    simp
  have lexed : Lexed (last :: one) := (cut ▸ lexed_bodyTokens source).split.1.split.2
  have found : header ∈ bodyTokens source := cut ▸ List.mem_append_cons_self
  have starts := (of_mem_scanLines found).2 titled
  rw [(placed_bodyTokens cut).2, wording_append] at starts
  by_cases broken : '\n' ∈ wording (last :: one)
  · obtain ⟨token, inside, kind⟩ := (newline_mem_wording_iff lexed solid).1 broken
    exact ⟨token, List.mem_append_left _ inside, kind⟩
  -- Without a line break the header would stand behind the first column.
  · have filled : 0 < last.value.toList.length :=
      List.length_pos_iff.2 (Kind.Matches.allowed (lexed last List.mem_cons_self)).ne_nil
    have counted : 0 < columnBehind (wording before) := columnBehind_pos
    rw [columnBehind_append broken, wording_cons, List.length_append] at starts
    omega

end Places

section Lines

variable {source header : String} {tokens : List Token} {spans : List (List Token)}
  {lines : List (List Predicate)} {d : Derivation}

/-- Two tokens of a source with a gap between them that holds only blanks and headers. They stand on
different lines just if the gap holds a line break, as it does if it holds a header. -/
structure Parted (source header : String) (last : Token) (gap : List Token) (first : Token) : Prop where
  split : ∃ before after, bodyTokens source = before ++ last :: (gap ++ first :: after)
  blank : ∀ token ∈ gap, token.isBlank = true ∨ Grammar.IsHeader token header
  titled : (∃ token ∈ gap, Grammar.IsHeader token header) → last.line < first.line
  line_lt_iff : last.line < first.line ↔ ∃ token ∈ gap, token.kind = .newline

/-- Phrases of a source that state the lines of an expression, one after the other. Where one of them is
over a name follows that does not join it. -/
structure Arranged (source header : String) (spans : List (List Token)) (lines : List (List Predicate)) :
    Prop where
  laid : ∃ front tokens behind, bodyTokens source = front ++ (tokens ++ behind) ∧
    Grammar.Spans header (significant tokens) spans lines
  parted : ∀ front one two behind, spans = front ++ one :: two :: behind → ∃ start last gap first rest,
    one = start ++ [last] ∧ two = first :: rest ∧ (first.kind = .name ∧ first.value ≠ "and") ∧
      Parted source header last gap first

theorem arranged {front behind : List Token} (split : bodyTokens source = front ++ (tokens ++ behind))
    (laid : Grammar.Spans header (significant tokens) spans lines) :
    Arranged source header spans lines where
  laid := ⟨front, tokens, behind, split, laid⟩
  parted := by
    intro earlier one two later listed
    obtain ⟨before, headers, after, line, line', parts, titled, isLine, isLine'⟩ := laid.between listed
    obtain ⟨first, rest, rfl, named, apart⟩ := head_of_isLine isLine'
    have filled : one ≠ [] := by
      obtain ⟨token, more, rfl, -⟩ := head_of_isLine isLine
      exact List.cons_ne_nil _ _
    obtain ⟨start, last, rfl⟩ : ∃ start last, one = start ++ [last] :=
      ⟨_, _, (List.dropLast_concat_getLast filled).symm⟩
    -- The tokens between the two in the source are the headers and the blanks around them.
    have phrase : significant tokens =
        (before ++ start) ++ last :: (headers ++ first :: (rest ++ after)) := by
      rw [parts]
      simp
    obtain ⟨ahead, gap, beyond, cut, same, solid⟩ := exists_gap phrase
    have placed : bodyTokens source = (front ++ ahead) ++ last :: (gap ++ first :: (beyond ++ behind)) := by
      rw [split, cut]
      simp
    have later := line_lt_iff placed solid
    refine ⟨start, last, gap, first, rest, rfl, rfl, ⟨named, apart⟩, ⟨_, _, placed⟩, ?_, ?_, later⟩
    · intro token member
      cases blank : token.isBlank with
      | true => exact .inl rfl
      | false => exact .inr (titled token (same ▸ List.mem_filter.2 ⟨member, by simp [blank]⟩))
    · rintro ⟨token, member, opens⟩
      exact later.2 (newline_of_header placed solid ⟨token, member, opens.1⟩)

/-- Tokens that hold the sections with the condition and the test of a derivation. -/
def HoldSections (tokens : List Token) (d : Derivation) : Prop :=
  ∃ front whens tests behind, tokens = front ++ (whens ++ (tests ++ behind)) ∧
    Grammar.AreSections "when:" (significant whens) d.conditions ∧
    Grammar.AreSections "test:" (significant tests) d.tests

theorem holdSections_of_isRule (isRule : Grammar.IsRule tokens d) : HoldSections tokens d := by
  cases isRule with
  | @stated body closing _ inside =>
    generalize phrased : significant body = phrase at inside
    cases inside with
    | @parts opening word listing names whens tests _ _ _ _ _ _ condition _ test =>
      have phrase : significant body = opening :: word :: listing :: names ++ (whens ++ tests) := phrased
      obtain ⟨front, sections, rfl, -, parts⟩ := List.filter_eq_append_iff.1 phrase
      obtain ⟨one, two, rfl, rfl, rfl⟩ := List.filter_eq_append_iff.1 parts
      exact ⟨front, one, two, closing :: d.message, by simp, condition, test⟩

theorem holdSections_of_derives (derives : Grammar.Derives tokens d) : HoldSections tokens d := by
  cases derives with
  | plain _ isRule => exact holdSections_of_isRule isRule
  | @commented blanks comment _ opening _ _ _ _ _ _ _ isRule =>
    obtain ⟨front, whens, tests, behind, split, sections⟩ := holdSections_of_isRule isRule
    refine ⟨blanks ++ opening :: (comment ++ front), whens, tests, behind, ?_, sections⟩
    rw [split]
    simp

/-- The lines of the condition and of the test of a rule follow each other in its source, parted by blanks
and headers. Where a line break is among them the next line of the expression stands on a later line of the
source; where there is none, a name that no `and` joins to the line before starts a new one all the same. -/
theorem arranged_of_compile {file : String} {rule : TopicLint.Rule}
    (compiles : compile file source = .ok rule) :
    (∃ spans, Arranged source "when:" spans rule.condition.lines) ∧
      ∃ spans, Arranged source "test:" spans rule.test.lines := by
  obtain ⟨d, derives, rfl⟩ :=
    (ruleOf_eq_ok_iff _ (lexed_bodyTokens source)).1 (compile_eq_ok.1 compiles)
  obtain ⟨front, whens, tests, behind, split, conditions, checks⟩ := holdSections_of_derives derives
  obtain ⟨spans, laid⟩ := Grammar.Spans.of_areSections conditions
  obtain ⟨spans', laid'⟩ := Grammar.Spans.of_areSections checks
  have split' : bodyTokens source = (front ++ whens) ++ (tests ++ behind) := by
    rw [split, List.append_assoc]
  exact ⟨⟨spans, arranged split laid⟩, ⟨spans', arranged split' laid'⟩⟩

/-- A rule file with a line that goes on with an `and`, a repeated section, and two lines on one. -/
def spread : String :=
  "rule: error\nextensions: htm\nwhen: self p\n  self q and\nself r\nwhen: self s self t\n" ++
    "test: fail\nmessage: m"

theorem arranged_spread :
    let self (tag : String) : Predicate := ⟨false, .along .self (.present tag)⟩
    let condition : Expression := ⟨[[self "p"], [self "q", self "r"], [self "s"], [self "t"]]⟩
    let test : Expression := ⟨[[⟨false, .fail⟩]]⟩
    compile "r.txt" spread = .ok ⟨"r.txt", none, .error, ["htm"], condition, test, "m"⟩ ∧
      (∃ spans, Arranged spread "when:" spans condition.lines) ∧
      ∃ spans, Arranged spread "test:" spans test.lines := by
  intro self condition test
  have compiles : compile "r.txt" spread = .ok ⟨"r.txt", none, .error, ["htm"], condition, test, "m"⟩ := by
    decide +kernel
  exact ⟨compiles, arranged_of_compile compiles⟩

/-- A rule file with two lines of its condition on one line. -/
def joined : String := "rule: error\nextensions: htm\nwhen: self p self q\ntest: fail\nmessage: m"

theorem joined_on_line :
    let self (tag : String) : Predicate := ⟨false, .along .self (.present tag)⟩
    let one : List Token := [⟨.name, "self", 3, 7⟩, ⟨.name, "p", 3, 12⟩]
    let two : List Token := [⟨.name, "self", 3, 14⟩, ⟨.name, "q", 3, 19⟩]
    let condition : Expression := ⟨[[self "p"], [self "q"]]⟩
    compile "r.txt" joined = .ok ⟨"r.txt", none, .error, ["htm"], condition, ⟨[[⟨false, .fail⟩]]⟩, "m"⟩ ∧
      Arranged joined "when:" [one, two] condition.lines ∧
      ¬∀ last ∈ one.getLast?, ∀ first ∈ two.head?, last.line < first.line := by
  intro self one two condition
  have isLine (column : Nat) (tag : String) : Grammar.IsLine
      [⟨.name, "self", 3, column⟩, ⟨.name, tag, 3, column + 5⟩] [self tag] :=
    .last (.plain (.ask rfl (.along (.inr ⟨rfl, rfl⟩) ⟨_, rfl, .inl rfl, rfl⟩)))
  have laid : Grammar.Spans "when:" ([⟨.header, "when:", 3, 1⟩] ++ (one ++ (two ++ [])))
      [one, two] condition.lines :=
    .opening ⟨rfl, rfl⟩ (.line (isLine 7 "p") (.line (isLine 14 "q") .none))
  have section' : significant (((bodyTokens joined).drop 8).take 9) =
      [⟨.header, "when:", 3, 1⟩] ++ (one ++ (two ++ [])) := by decide +kernel
  have split : bodyTokens joined = (bodyTokens joined).take 8 ++
      (((bodyTokens joined).drop 8).take 9 ++ ((bodyTokens joined).drop 8).drop 9) := by
    rw [List.take_append_drop, List.take_append_drop]
  exact ⟨by decide +kernel, arranged split (section' ▸ laid), by decide⟩

end Lines

end TopicLint.Rule
