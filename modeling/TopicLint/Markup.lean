/-! Inline markup in messages: `*bold*`, `` `code` ``, and a backslash that takes away the meaning
of the mark behind it. A message is read into spans of one style; spans can be shown without marks
or with them. -/

namespace TopicLint.Markup

/-- The style of a run of message text. -/
inductive Style where
  | plain
  | bold
  | code
  deriving DecidableEq, Repr

/-- A run of message text in one style. -/
structure Span where
  style : Style
  text : List Char
  deriving DecidableEq, Repr

/-- A character of a message once the escapes are resolved. A mark can open or close a span. -/
structure Glyph where
  char : Char
  isMark : Bool
  deriving DecidableEq, Repr

def isDelimiter (c : Char) : Bool := c = '*' || c = '\x60'

def isEscapable (c : Char) : Bool := isDelimiter c || c = '\\'

/-- Resolves the escapes of a message from left to right. A backslash before a character that it
cannot escape stands for itself. -/
def glyphs : List Char → List Glyph
  | '\\' :: c :: rest =>
      if isEscapable c then ⟨c, false⟩ :: glyphs rest
      else ⟨'\\', false⟩ :: glyphs (c :: rest)
  | c :: rest => ⟨c, isDelimiter c⟩ :: glyphs rest
  | [] => []

/-- The style that a mark gives to the text it encloses. -/
def styleOf (mark : Char) : Style := if mark = '*' then .bold else .code

/-- Puts one plain character in front of spans, joining it to a plain span that leads them. -/
def consPlain (c : Char) : List Span → List Span
  | ⟨.plain, text⟩ :: rest => ⟨.plain, c :: text⟩ :: rest
  | spans => ⟨.plain, [c]⟩ :: spans

/-- Groups glyphs into spans. A mark opens a span if the next mark equal to it leaves some text
between the two; otherwise it is plain text. What a span encloses is not looked at again. -/
def group : List Glyph → List Span
  | [] => []
  | glyph :: rest =>
      let length := rest.findIdx (· == glyph)
      if glyph.isMark && decide (0 < length) && decide (length < rest.length) then
        ⟨styleOf glyph.char, (rest.take length).map (·.char)⟩ :: group (rest.drop (length + 1))
      else consPlain glyph.char (group rest)
  termination_by glyphs => glyphs.length

def parse (message : String) : List Span := group (glyphs message.toList)

def plain (spans : List Span) : String := String.ofList (spans.flatMap (·.text))

def Span.written (span : Span) : List Char :=
  match span.style with
  | .plain => span.text
  | .bold => '*' :: span.text ++ ['*']
  | .code => '\x60' :: span.text ++ ['\x60']

/-- The text of spans with their marks and without escapes. -/
def toSource (spans : List Span) : String := String.ofList (spans.flatMap (·.written))

end TopicLint.Markup
