import TopicLint.Rule.Compile

/-! The grammar of rule files. Between its parts, and outside its two texts, blank tokens may stand
anywhere; so the parts are phrases of significant tokens, and only the texts are runs of all
tokens. A derivation keeps what the phrases stand for, section by section. -/

namespace TopicLint.Rule

def significant (tokens : List Token) : List Token := tokens.filter (! ·.isBlank)

namespace Grammar

def IsHeader (token : Token) (header : String) : Prop := token.kind = .header ∧ token.value = header

def IsName (token : Token) (name : String) : Prop := token.kind = .name ∧ token.value = name

def IsTag (token : Token) (tag : String) : Prop :=
  (token.kind = .name ∨ token.kind = .wildcard) ∧ token.value = tag

/-- A number has to fit a word. -/
def IsNumber (token : Token) (n : Nat) : Prop :=
  token.kind = .number ∧ Text.decimal token.value.toList = n ∧ n < Text.wordLimit

def IsQuote (token : Token) (text : String) : Prop :=
  token.kind = .quote ∧ Quoted.unquote token.value = text

def IsArguments (arguments : List Token) : Check → Prop
  | .present tag | .style tag | .empty tag | .first tag | .last tag | .padding tag =>
      ∃ a, arguments = [a] ∧ IsTag a tag
  | .position tag place => ∃ a b, arguments = [a, b] ∧ IsTag a tag ∧ IsNumber b place
  | .contains tag text | .ownText tag text | .ends tag text | .begins tag text =>
      ∃ a b, arguments = [a, b] ∧ IsTag a tag ∧ IsQuote b text
  | .hasAttribute tag name => ∃ a b, arguments = [a, b] ∧ IsTag a tag ∧ IsName b name
  | .attributeEquals tag name text | .attributeContains tag name text
  | .attributeEnds tag name text =>
      ∃ a b c, arguments = [a, b, c] ∧ IsTag a tag ∧ IsName b name ∧ IsQuote c text
  | .namesVariable name => ∃ a, arguments = [a] ∧ IsName a name

/-- The word for a check along a view: both, with a hyphen between them. The word for the check for
presence is empty, and the hyphen before it may be left out. -/
def NamesCheck (word : String) (view : View) (check : Check) : Prop :=
  word = view.keyword ++ "-" ++ check.keyword ∨ check.keyword = "" ∧ word = view.keyword

/-- The questions that a word asks, with the tokens of their arguments. -/
inductive Asks : String → List Token → Question → Prop where
  | condition {token : Token} {name : String} (named : IsName token name) :
      Asks "condition" [token] (.condition name)
  | fail : Asks "fail" [] .fail
  | language {token : Token} {tag : String} (named : IsName token tag) :
      Asks "language" [token] (.language tag)
  | snippet {token : Token} {source : String} (quoted : IsQuote token source) :
      Asks "snippet" [token] (.snippet source)
  | along {word : String} {view : View} {check : Check} {arguments : List Token}
      (names : NamesCheck word view check) (given : IsArguments arguments check) :
      Asks word arguments (.along view check)

/-- A predicate without negation: a word and the arguments of what it asks. -/
inductive IsQuestion : List Token → Question → Prop where
  | ask {word : Token} {arguments : List Token} {question : Question} (named : word.kind = .name)
      (asks : Asks word.value arguments question) : IsQuestion (word :: arguments) question

inductive IsTerm : List Token → Predicate → Prop where
  | plain {tokens : List Token} {question : Question} (asked : IsQuestion tokens question) :
      IsTerm tokens ⟨false, question⟩
  | negated {negation : Token} {tokens : List Token} {question : Question}
      (negates : IsName negation "not") (asked : IsQuestion tokens question) :
      IsTerm (negation :: tokens) ⟨true, question⟩

inductive IsLine : List Token → List Predicate → Prop where
  | last {tokens : List Token} {predicate : Predicate} (term : IsTerm tokens predicate) :
      IsLine tokens [predicate]
  | joined {tokens rest : List Token} {joint : Token} {predicate : Predicate}
      {predicates : List Predicate} (term : IsTerm tokens predicate) (joins : IsName joint "and")
      (others : IsLine rest predicates) :
      IsLine (tokens ++ joint :: rest) (predicate :: predicates)

inductive AreLines : List Token → List (List Predicate) → Prop where
  | none : AreLines [] []
  | next {tokens rest : List Token} {line : List Predicate} {lines : List (List Predicate)}
      (first : IsLine tokens line) (others : AreLines rest lines) :
      AreLines (tokens ++ rest) (line :: lines)

/-- Sections with the same header, each with its lines. -/
inductive AreSections (header : String) : List Token → List (List (List Predicate)) → Prop where
  | none : AreSections header [] []
  | next {opening : Token} {tokens rest : List Token} {lines : List (List Predicate)}
      {sections : List (List (List Predicate))} (opens : IsHeader opening header)
      (inside : AreLines tokens lines) (others : AreSections header rest sections) :
      AreSections header (opening :: (tokens ++ rest)) (lines :: sections)

end Grammar

/-- What the parts of a rule file stand for. -/
@[ext]
structure Derivation where
  /-- The tokens of the comment, unless it is missing. -/
  comment : Option (List Token)
  severity : Severity
  extensions : List String
  /-- The lines of each `when:` section. -/
  conditions : List (List (List Predicate))
  /-- The lines of each `test:` section. -/
  tests : List (List (List Predicate))
  /-- The tokens of the message. -/
  message : List Token

namespace Derivation

/-- What the tokens of a text say, without blanks at the ends. -/
def textOf (tokens : List Token) : String :=
  Text.trim (String.ofList (tokens.flatMap (·.value.toList)))

/-- The rule that a derivation states. A comment that says nothing counts as missing, and the lines
of sections with the same header are put together. -/
def rule (file : String) (derivation : Derivation) : TopicLint.Rule where
  source := file
  description := (derivation.comment.map textOf).filter (! ·.isEmpty)
  severity := derivation.severity
  extensions := derivation.extensions
  condition := ⟨derivation.conditions.flatten⟩
  test := ⟨derivation.tests.flatten⟩
  message := textOf derivation.message

end Derivation

namespace Grammar

/-- A text is a run of tokens without a header. -/
def IsText (tokens : List Token) : Prop := ∀ token ∈ tokens, token.kind ≠ .header

/-- The parts between the comment and the message. Each expression has a line in some section. -/
inductive IsBody : List Token → Derivation → Prop where
  | parts {opening severity listing : Token} {names whens tests : List Token} {d : Derivation}
      (opens : IsHeader opening "rule:") (grave : IsName severity d.severity.name)
      (lists : IsHeader listing "extensions:") (named : ∀ token ∈ names, token.kind = .name)
      (listed : names.map (·.value) = d.extensions)
      (condition : AreSections "when:" whens d.conditions) (conditional : d.conditions.flatten ≠ [])
      (test : AreSections "test:" tests d.tests) (testing : d.tests.flatten ≠ []) :
      IsBody (opening :: severity :: listing :: (names ++ (whens ++ tests))) d

/-- All tokens behind the comment. The message goes on up to the end. -/
inductive IsRule : List Token → Derivation → Prop where
  | stated {body : List Token} {header : Token} {d : Derivation}
      (inside : IsBody (significant body) d) (closes : IsHeader header "message:")
      (text : IsText d.message) : IsRule (body ++ header :: d.message) d

/-- All tokens of a rule file. The comment goes on up to the header behind it. -/
inductive Derives : List Token → Derivation → Prop where
  | plain {tokens : List Token} {d : Derivation} (without : d.comment = none)
      (rule : IsRule tokens d) : Derives tokens d
  | commented {blanks comment rest : List Token} {opening first : Token} {d : Derivation}
      (blank : ∀ token ∈ blanks, token.isBlank = true) (opens : IsHeader opening "comment:")
      (within : d.comment = some comment) (comments : IsText comment) (ends : first.kind = .header)
      (rule : IsRule (first :: rest) d) :
      Derives (blanks ++ opening :: (comment ++ first :: rest)) d

end Grammar

end TopicLint.Rule
