import TopicLint.Text.Blank
import TopicLint.Text.Decimal
import TopicLint.Text.Search
import TopicLint.Rule.Basic
import TopicLint.Rule.Token

/-! Compiling rule files. A rule file has, in this order, a comment that may be missing, the type
of the rule, the extensions it is for, its condition, its test and its message. The compiler reads
tokens from left to right and stops at the first fault, which it places on a line. -/

namespace TopicLint.Rule

/-- Why a rule file is refused. The context of an argument is the word that asks for it. -/
inductive Cause where
  | expectedSection (header : String) (found : Token)
  | expectedTag (context : String) (found : Token)
  | expectedName (context : String) (found : Token)
  | expectedNumber (context : String) (found : Token)
  | expectedQuote (context : String) (found : Token)
  | unknownPredicate (name : String)
  | unknownRuleType (name : String)
  | sectionInMessage (header : Token)
  | emptyExpression (header : String)
  deriving DecidableEq, Repr

def Cause.message : Cause → String
  | expectedSection header found =>
      "expected section '" ++ header ++ "' but found " ++ found.shown
  | expectedTag context found => "'" ++ context ++ "' expects a tag name or * but found " ++ found.shown
  | expectedName context found => "'" ++ context ++ "' expects a name but found " ++ found.shown
  | expectedNumber context found => "'" ++ context ++ "' expects a number but found " ++ found.shown
  | expectedQuote context found =>
      "'" ++ context ++ "' expects a quoted string but found " ++ found.shown
  | unknownPredicate name => "unknown predicate '" ++ name ++ "'"
  | unknownRuleType name => "rule type must be 'error' or 'warning' but found '" ++ name ++ "'"
  | sectionInMessage header => "'message:' must be the last section but found " ++ header.shown
  | emptyExpression header => "section '" ++ header ++ "' has no expressions"

/-- A cause and the line it is found on. -/
structure Fault where
  line : Nat
  cause : Cause
  deriving DecidableEq, Repr

/-- A fault in a named rule file. -/
structure CompileError where
  file : String
  line : Nat
  cause : Cause
  deriving DecidableEq, Repr

/-- The wording of an error: the place and the cause. -/
def CompileError.message (error : CompileError) : String :=
  error.file ++ ", line " ++ toString error.line ++ ": " ++ error.cause.message

/-- Reads something from the front of tokens, or finds a fault there. -/
abbrev Parser (α : Type) := StateT (List Token) (Except Fault) α

def skipBlank (tokens : List Token) : List Token := tokens.dropWhile (·.isBlank)

section Parsers

/- Every parser takes the token behind all others, which is found when no token is left. -/
variable (ending : Token)

/-- The next token, which has to be of an accepted kind. -/
def argument (accepts : Kind → Bool) (cause : Token → Cause) : Parser Token := fun tokens =>
  match skipBlank tokens with
  | [] => .error ⟨ending.line, cause ending⟩
  | token :: rest =>
      if accepts token.kind then .ok (token, rest) else .error ⟨token.line, cause token⟩

def tagArgument (context : String) : Parser String := do
  let token ← argument ending (fun kind => kind == .name || kind == .wildcard)
    (.expectedTag context)
  return token.value

def nameArgument (context : String) : Parser String := do
  let token ← argument ending (· == .name) (.expectedName context)
  return token.value

def numberArgument (context : String) : Parser Nat := do
  let token ← argument ending (· == .number) (.expectedNumber context)
  match Text.word? token.value.toList with
  | some n => return n
  | none => throw ⟨token.line, .expectedNumber context token⟩

def quoteArgument (context : String) : Parser String := do
  let token ← argument ending (· == .quote) (.expectedQuote context)
  return Quoted.unquote token.value

def formArguments (context : String) : Form → Parser Check
  | .tag check => return check (← tagArgument ending context)
  | .tagNumber check => do
      let tag ← tagArgument ending context
      return check tag (← numberArgument ending context)
  | .tagQuote check => do
      let tag ← tagArgument ending context
      return check tag (← quoteArgument ending context)
  | .tagName check => do
      let tag ← tagArgument ending context
      return check tag (← nameArgument ending context)
  | .tagNameQuote check => do
      let tag ← tagArgument ending context
      let name ← nameArgument ending context
      return check tag name (← quoteArgument ending context)
  | .name check => return check (← nameArgument ending context)

/-- The view and the check that a word names: what stands before its first hyphen and behind. -/
def viewAndCheck (word : String) : String × String := (Text.cutFirst? '-' word).getD (word, "")

/-- The question that a word on a line starts, with its arguments. -/
def questionOf (word : String) (line : Nat) : Parser Question :=
  match View.ofKeyword? (viewAndCheck word).1 with
  | some view =>
      match Check.forms.lookup (viewAndCheck word).2 with
      | some form => return .along view (← formArguments ending word form)
      | none => throw ⟨line, .unknownPredicate word⟩
  | none =>
      if word = "condition" then return .condition (← nameArgument ending word)
      else if word = "fail" then return .fail
      else if word = "language" then return .language (← nameArgument ending word)
      else if word = "snippet" then return .snippet (← quoteArgument ending word)
      else throw ⟨line, .unknownPredicate word⟩

/-- The next token that is not blank, of whatever kind. -/
def anyToken (cause : Token → Cause) : Parser Token := argument ending (fun _ => true) cause

/-- A predicate without negation. Whatever token stands first is taken for its word. -/
def plainPredicate : Parser Predicate := do
  let token ← anyToken ending (.unknownPredicate ·.value)
  return ⟨false, ← questionOf ending token.value token.line⟩

def isWord (word : String) (token : Token) : Bool := token.kind == .name && token.value == word

def term : Parser Predicate := fun tokens =>
  match skipBlank tokens with
  | [] => plainPredicate ending []
  | token :: rest =>
      if isWord "not" token then (return (← plainPredicate ending).negate : Parser _) rest
      else plainPredicate ending (token :: rest)

end Parsers

/-- A parser that leaves no more tokens than it is given. -/
def Parser.Keeps {α : Type} (parser : Parser α) : Prop :=
  ∀ tokens value rest, parser tokens = .ok (value, rest) → rest.length ≤ tokens.length

def Parser.Takes {α : Type} (parser : Parser α) : Prop :=
  ∀ tokens value rest, parser tokens = .ok (value, rest) → rest.length < tokens.length

section Lengths

open TopicLint.Rule.Parser

theorem keeps_pure {α : Type} (value : α) : Keeps (pure value) := by
  intro tokens result rest read
  cases read
  exact Nat.le_refl _

theorem keeps_throw {α : Type} (fault : Fault) : Keeps (throw fault : Parser α) := by
  intro tokens result rest read
  cases read

theorem Parser.Takes.keeps {α : Type} {parser : Parser α} (takes : Takes parser) : Keeps parser :=
  fun tokens value rest read => Nat.le_of_lt (takes tokens value rest read)

theorem bind_read {α β : Type} {first : Parser α} {next : α → Parser β} {tokens rest : List Token}
    {value : β} (read : (first >>= next) tokens = .ok (value, rest)) :
    ∃ middle between, first tokens = .ok (middle, between) ∧
      next middle between = .ok (value, rest) := by
  cases found : first tokens with
  | error fault =>
    rw [show (first >>= next) tokens = .error fault by
      simp [bind, StateT.bind, Except.bind, found]] at read
    cases read
  | ok result =>
    refine ⟨result.1, result.2, rfl, ?_⟩
    rw [← read]
    simp [bind, StateT.bind, Except.bind, found]

theorem keeps_bind {α β : Type} {first : Parser α} {next : α → Parser β} (start : Keeps first)
    (after : ∀ middle, Keeps (next middle)) : Keeps (first >>= next) := by
  intro tokens value rest read
  obtain ⟨middle, between, one, two⟩ := bind_read read
  exact Nat.le_trans (after _ _ _ _ two) (start _ _ _ one)

theorem takes_bind {α β : Type} {first : Parser α} {next : α → Parser β} (start : Takes first)
    (after : ∀ middle, Keeps (next middle)) : Takes (first >>= next) := by
  intro tokens value rest read
  obtain ⟨middle, between, one, two⟩ := bind_read read
  exact Nat.lt_of_le_of_lt (after _ _ _ _ two) (start _ _ _ one)

theorem length_skipBlank_le (tokens : List Token) : (skipBlank tokens).length ≤ tokens.length :=
  (List.dropWhile_sublist _).length_le

theorem length_lt_of_skipBlank {tokens rest : List Token} {token : Token}
    (found : skipBlank tokens = token :: rest) : rest.length < tokens.length := by
  have bound := length_skipBlank_le tokens
  rw [found, List.length_cons] at bound
  omega

variable (ending : Token)

theorem takes_argument (accepts : Kind → Bool) (cause : Token → Cause) :
    Takes (argument ending accepts cause) := by
  intro tokens value rest read
  unfold argument at read
  split at read
  · cases read
  next found =>
    split at read
    · cases read
      exact length_lt_of_skipBlank found
    · cases read

theorem takes_tagArgument (context : String) : Takes (tagArgument ending context) :=
  takes_bind (takes_argument ending _ _) fun _ => keeps_pure _

theorem takes_nameArgument (context : String) : Takes (nameArgument ending context) :=
  takes_bind (takes_argument ending _ _) fun _ => keeps_pure _

theorem takes_quoteArgument (context : String) : Takes (quoteArgument ending context) :=
  takes_bind (takes_argument ending _ _) fun _ => keeps_pure _

theorem takes_numberArgument (context : String) : Takes (numberArgument ending context) := by
  refine takes_bind (takes_argument ending _ _) fun token => ?_
  split
  · exact keeps_pure _
  · exact keeps_throw _

theorem keeps_formArguments (context : String) (form : Form) :
    Keeps (formArguments ending context form) := by
  have tag := (takes_tagArgument ending context).keeps
  have name := (takes_nameArgument ending context).keeps
  have text := (takes_quoteArgument ending context).keeps
  have number := (takes_numberArgument ending context).keeps
  cases form with
  | tag check => exact keeps_bind tag fun _ => keeps_pure _
  | tagNumber check => exact keeps_bind tag fun _ => keeps_bind number fun _ => keeps_pure _
  | tagQuote check => exact keeps_bind tag fun _ => keeps_bind text fun _ => keeps_pure _
  | tagName check => exact keeps_bind tag fun _ => keeps_bind name fun _ => keeps_pure _
  | tagNameQuote check =>
    exact keeps_bind tag fun _ => keeps_bind name fun _ => keeps_bind text fun _ => keeps_pure _
  | name check => exact keeps_bind name fun _ => keeps_pure _

theorem keeps_questionOf (word : String) (line : Nat) : Keeps (questionOf ending word line) := by
  have name := (takes_nameArgument ending word).keeps
  have text := (takes_quoteArgument ending word).keeps
  unfold questionOf
  split
  · split
    · exact keeps_bind (keeps_formArguments ending _ _) fun _ => keeps_pure _
    · exact keeps_throw _
  · split
    · exact keeps_bind name fun _ => keeps_pure _
    · split
      · exact keeps_pure _
      · split
        · exact keeps_bind name fun _ => keeps_pure _
        · split
          · exact keeps_bind text fun _ => keeps_pure _
          · exact keeps_throw _

theorem takes_plainPredicate : Takes (plainPredicate ending) :=
  takes_bind (takes_argument ending _ _) fun _ => keeps_bind (keeps_questionOf ending _ _) fun _ => keeps_pure _

theorem takes_term : Takes (term ending) := by
  intro tokens value rest read
  unfold term at read
  split at read
  next found =>
    exact absurd (takes_plainPredicate ending _ _ _ read) (Nat.not_lt_zero _)
  next token more found =>
    have bound := length_lt_of_skipBlank found
    split at read
    · have takes : Takes (do return (← plainPredicate ending).negate) :=
        takes_bind (takes_plainPredicate ending) fun _ => keeps_pure _
      have less := takes _ _ _ read
      omega
    · have less := takes_plainPredicate ending _ _ _ read
      simp only [List.length_cons] at less
      omega

end Lengths

section Sections

variable (ending : Token)

/-- The predicates joined by `and` on a line of an expression. -/
def conjunction (tokens : List Token) : Except Fault (List Predicate × List Token) :=
  match read : term ending tokens with
  | .error fault => .error fault
  | .ok (predicate, rest) =>
      have := takes_term ending _ _ _ read
      match found : skipBlank rest with
      | [] => .ok ([predicate], [])
      | token :: more =>
          have := length_lt_of_skipBlank found
          if isWord "and" token then
            match conjunction more with
            | .error fault => .error fault
            | .ok (predicates, after) => .ok (predicate :: predicates, after)
          else .ok ([predicate], token :: more)
  termination_by tokens.length

theorem takes_conjunction : Parser.Takes (conjunction ending) := by
  intro tokens
  fun_induction conjunction ending tokens with
  | case1 => intro value rest result; cases result
  | case2 tokens predicate between read shorter =>
    intro value rest result
    cases result
    exact Nat.lt_of_le_of_lt (Nat.zero_le _) shorter
  | case3 => intro value rest result; cases result
  | case4 tokens predicate between read shorter token more found less joined predicates after inner ih =>
    intro value rest result
    cases result
    have last := ih _ _ inner
    omega
  | case5 tokens predicate between read shorter token more found =>
    intro value rest result
    cases result
    have bound := length_skipBlank_le between
    rw [found] at bound
    omega

/-- The lines of an expression: conjunctions as long as a name comes next. -/
def conjunctions : List Token → Except Fault (List (List Predicate) × List Token)
  | [] => .ok ([], [])
  | token :: more =>
      if token.kind == .name then
        match read : conjunction ending (token :: more) with
        | .error fault => .error fault
        | .ok (line, rest) =>
            have := takes_conjunction ending _ _ _ read
            match conjunctions rest with
            | .error fault => .error fault
            | .ok (lines, after) => .ok (line :: lines, after)
      else .ok ([], token :: more)
  termination_by tokens => tokens.length
  decreasing_by grind

theorem keeps_conjunctions : Parser.Keeps (conjunctions ending) := by
  intro tokens
  fun_induction conjunctions ending tokens with
  | case1 => intro value rest result; cases result; exact Nat.le_refl _
  | case2 => intro value rest result; cases result
  | case3 => intro value rest result; cases result
  | case4 token more name line between read shorter lines after inner ih =>
    intro value rest result
    cases result
    have last := ih _ _ inner
    omega
  | case5 => intro value rest result; cases result; exact Nat.le_refl _

/-- The lines of all sections with the same header that follow each other. -/
def repeated (header : String) : List Token → Except Fault (List (List Predicate) × List Token)
  | [] => .ok ([], [])
  | token :: more =>
      if token.isSection header then
        match read : conjunctions ending (skipBlank more) with
        | .error fault => .error fault
        | .ok (lines, rest) =>
            have := keeps_conjunctions ending _ _ _ read
            have := length_skipBlank_le more
            match repeated header rest with
            | .error fault => .error fault
            | .ok (others, after) => .ok (lines ++ others, after)
      else .ok ([], token :: more)
  termination_by tokens => tokens.length

/-- The tokens from a section header on, which has to come next. -/
def fromSection (header : String) (tokens : List Token) : Except Fault (List Token) :=
  match skipBlank tokens with
  | [] => .error ⟨ending.line, .expectedSection header ending⟩
  | token :: rest =>
      if token.isSection header then .ok (token :: rest)
      else .error ⟨token.line, .expectedSection header token⟩

/-- The text up to the next section header, without blanks at its ends. -/
def sectionText (tokens : List Token) : String :=
  Text.trim (String.ofList
    ((tokens.takeWhile fun token => token.kind != .header).flatMap (·.value.toList)))

def nextSection (tokens : List Token) : List Token :=
  tokens.dropWhile fun token => token.kind != .header

/-- The comment at the start of a rule file, unless it is missing or blank. -/
def comment (tokens : List Token) : Option String × List Token :=
  match skipBlank tokens with
  | [] => (none, [])
  | token :: rest =>
      if token.isSection "comment:" then
        let text := sectionText rest
        (if text.isEmpty then none else some text, nextSection rest)
      else (none, token :: rest)

def ruleType : Parser Severity := fun tokens => do
  let tokens ← fromSection ending "rule:" tokens
  let (token, rest) ← argument ending (· == .name) (.expectedName "rule:") tokens.tail
  match Severity.ofName? token.value with
  | some severity => return (severity, rest)
  | none => throw ⟨token.line, .unknownRuleType token.value⟩

/-- The extensions that a rule is for: the names up to the first other token. -/
def extensionList : Parser (List String) := fun tokens => do
  let tokens ← fromSection ending "extensions:" tokens
  let belongs (token : Token) : Bool := token.isBlank || token.kind == .name
  let names := (tokens.tail.takeWhile belongs).filter (·.kind == .name)
  return (names.map (·.value), tokens.tail.dropWhile belongs)

/-- The lines of the sections with a header, of which there has to be at least one. -/
def expression (header : String) : Parser Expression := fun tokens => do
  let tokens ← fromSection ending header tokens
  let (lines, rest) ← repeated ending header tokens
  if lines.isEmpty then throw ⟨(rest.headD ending).line, .emptyExpression header⟩
  return (⟨lines⟩, rest)

/-- The message of a rule, which takes the rest of the file. -/
def messageText (tokens : List Token) : Except Fault String := do
  let tokens ← fromSection ending "message:" tokens
  match nextSection tokens.tail with
  | [] => return sectionText tokens.tail
  | header :: _ => throw ⟨header.line, .sectionInMessage header⟩

/-- The rule that tokens state, named after its file. -/
def ruleOf (file : String) (tokens : List Token) : Except Fault Rule := do
  let (description, tokens) := comment tokens
  let (severity, tokens) ← ruleType ending tokens
  let (extensions, tokens) ← extensionList ending tokens
  let (condition, tokens) ← expression ending "when:" tokens
  let (test, tokens) ← expression ending "test:" tokens
  let message ← messageText ending tokens
  return { source := file, description, severity, extensions, condition, test, message }

end Sections

/-- Compiles the text of a rule file; the rule is named after the file. -/
def compile (file source : String) : Except CompileError Rule :=
  match ruleOf (endToken source) file (bodyTokens source) with
  | .ok rule => .ok rule
  | .error fault => .error ⟨file, fault.line, fault.cause⟩

end TopicLint.Rule
