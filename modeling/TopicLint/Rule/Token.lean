/-! Tokens of rule files. A source is read line by line, and each line is cut by a fixed order of
precedence between token classes; the tokens of a source put together give the source again,
except for a byte order mark at its start and the carriage returns before line breaks. -/

namespace TopicLint.Rule

inductive Kind where
  | header
  | wildcard
  | name
  | number
  | quote
  | newline
  | whitespace
  | other
  | finish
  deriving DecidableEq, Repr

/-- A token of a rule file, with its line and its column counted from one. -/
structure Token where
  kind : Kind
  value : String
  line : Nat
  column : Nat
  deriving DecidableEq, Repr

namespace Token

/-- Whether the token is the given section header, such as `when:`. -/
def isSection (token : Token) (header : String) : Bool :=
  token.kind == .header && token.value == header

def isBlank (token : Token) : Bool := token.kind == .whitespace || token.kind == .newline

def shown (token : Token) : String :=
  match token.kind with
  | .finish => "end of file"
  | .newline => "end of line"
  | _ => "'" ++ token.value ++ "'"

/-- The token that stands behind a source whose last line has the given number. -/
def ending (line : Nat) : Token := ⟨.finish, "end of file", line, 1⟩

end Token

def isLetter (c : Char) : Bool := c.isAlpha

def startsName (c : Char) : Bool := isLetter c || c = '.'

def continuesName (c : Char) : Bool :=
  isLetter c || c.isDigit || c = '-' || c = '_' || c = '.' || c = ':'

/-- How many characters at the start of a text satisfy `good`. -/
def runLength (good : Char → Bool) (text : List Char) : Nat := (text.takeWhile good).length

namespace Kind

def precedence : List Kind :=
  [.header, .wildcard, .name, .number, .quote, .newline, .whitespace, .other]

/-- How many characters a token of the class takes at the start of a text, or zero if none of
the class starts there. A section header needs the start of a line, and a quote ends on the
line where it starts. -/
def extent (atLineStart : Bool) : Kind → List Char → Nat
  | .header, text =>
      let letters := runLength isLetter text
      if atLineStart && decide (0 < letters) && (text.drop letters).head? == some ':' then letters + 1
      else 0
  | .wildcard, '*' :: _ => 1
  | .name, c :: rest => if startsName c then 1 + runLength continuesName rest else 0
  | .number, text => runLength Char.isDigit text
  | .quote, '"' :: rest =>
      let body := runLength (fun c => c != '"' && c != '\n') rest
      if (rest.drop body).head? == some '"' then body + 2 else 0
  | .newline, '\n' :: _ => 1
  | .whitespace, text => runLength (fun c => c = ' ' || c = '\t') text
  | .other, c :: _ => if c = '\n' then 0 else 1
  | _, _ => 0

/-- The first class in order of precedence of which a token starts here. -/
def first (atLineStart : Bool) (text : List Char) : Kind :=
  (precedence.find? fun kind => decide (0 < kind.extent atLineStart text)).getD .other

end Kind

/-- The tokens of the rest of a line that starts at the given column. -/
def scanLine (line column : Nat) : List Char → List Token
  | [] => []
  | c :: rest =>
      let text := c :: rest
      let kind := Kind.first (column == 1) text
      let length := kind.extent (column == 1) text
      ⟨kind, String.ofList (text.take length), line, column⟩ ::
        scanLine line (column + length) (rest.drop (length - 1))
  termination_by text => text.length

/-- The lines of a text, each with the line break that ends it. -/
def lines : List Char → List (List Char)
  | [] => []
  | c :: rest =>
      if c = '\n' then [c] :: lines rest
      else match lines rest with
        | [] => [[c]]
        | line :: more => (c :: line) :: more

/-- A line that ends with a carriage return and a line break, with the line break alone at its end. -/
def unifyLineBreak (line : List Char) : List Char :=
  if ['\r', '\n'].isSuffixOf line then line.take (line.length - 2) ++ ['\n'] else line

def dropMark : List Char → List Char
  | '\uFEFF' :: rest => rest
  | text => text

/-- The lines of a source as the tokens are read from them. -/
def sourceLines (source : String) : List (List Char) :=
  (lines (dropMark source.toList)).map unifyLineBreak

/-- The tokens of lines, of which the first has the given number. -/
def scanLines (line : Nat) : List (List Char) → List Token
  | [] => []
  | text :: rest => scanLine line 1 text ++ scanLines (line + 1) rest

def bodyTokens (source : String) : List Token := scanLines 1 (sourceLines source)

/-- The token behind a source. It stands on the last line, also if a line break ends that line. -/
def endToken (source : String) : Token := Token.ending (max 1 (sourceLines source).length)

def tokens (source : String) : List Token := bodyTokens source ++ [endToken source]

end TopicLint.Rule
