/-! Cutting YAML into tokens. Indentation becomes tokens too: a block collection opens where a line
starts further to the right than the collection around it, and closes where a line starts further to
the left. Anchors, tags, directives and block scalars are not among the tokens. -/

namespace TopicLint.Yaml

inductive Token where
  | openBlockList
  | openBlockMap
  | closeBlock
  | documentStart
  | documentEnd
  | openList
  | closeList
  | openMap
  | closeMap
  | comma
  | item
  | key
  | value
  /-- A scalar. A plain one is written without quotes. -/
  | scalar (plain : Bool) (text : List Char)
  deriving DecidableEq, Repr

/-- What is left of a text, and where it is. -/
structure Cursor where
  rest : List Char
  offset : Nat
  line : Nat
  column : Nat

/-- A scalar or collection that is a key if a colon stands behind it on the same line. -/
structure Candidate where
  index : Nat
  offset : Nat
  line : Nat
  column : Nat
  required : Bool

structure Scanner where
  cursor : Cursor
  tokens : List Token
  /-- For each open block collection the columns that its contents leave free, innermost first. -/
  indents : List Nat
  /-- For each open flow collection, and for the document, the candidate in it; innermost first. -/
  candidates : List (Option Candidate)
  mayStart : Bool

/-! Characters. -/

def isPrintable (c : Char) : Bool :=
  let n := c.toNat
  c = '\t' || c = '\n' || c = '\r' || (decide (0x20 ≤ n) && decide (n ≤ 0x7E)) || n = 0x85 ||
    (decide (0xA0 ≤ n) && decide (n ≤ 0xFFFD)) || decide (0x10000 ≤ n)

/-- The text with every line end written as a single line feed. -/
def withLineFeeds : List Char → List Char
  | '\r' :: '\n' :: rest => '\n' :: withLineFeeds rest
  | '\r' :: rest => '\n' :: withLineFeeds rest
  | '\x85' :: rest => '\n' :: withLineFeeds rest
  | c :: rest => c :: withLineFeeds rest
  | [] => []

def isBlank (c : Char) : Bool := c = ' ' || c = '\t'

def isGap (c : Char) : Bool := isBlank c || c = '\n'

def startsGap : List Char → Bool
  | [] => true
  | c :: _ => isGap c

def isDocumentMark : List Char → Bool
  | '-' :: '-' :: '-' :: rest | '.' :: '.' :: '.' :: rest => startsGap rest
  | _ => false

def isFlowMark (c : Char) : Bool := [',', '[', ']', '\x7b', '\x7d'].contains c

/-! Scalars. -/

/-- Blanks and line ends between two words of a scalar. -/
structure Gap where
  /-- The blanks before the first line end, last one first. -/
  blanks : List Char
  breaks : Nat
  /-- Whether a backslash takes away the meaning of the first line end. -/
  escaped : Bool

namespace Gap

def none : Gap := ⟨[], 0, false⟩

def isOpen (gap : Gap) : Bool := gap.escaped || decide (0 < gap.breaks)

/-- What a gap stands for: a single line end is a space, and of several the first one is nothing. -/
def folded (gap : Gap) : List Char :=
  if gap.escaped then List.replicate gap.breaks '\n'
  else match gap.breaks with
    | 0 => gap.blanks.reverse
    | 1 => [' ']
    | breaks + 1 => List.replicate breaks '\n'

def push (gap : Gap) (c : Char) : Gap :=
  if c = '\n' then { gap with breaks := gap.breaks + 1 }
  else if gap.isOpen then gap
  else { gap with blanks := c :: gap.blanks }

end Gap

namespace Cursor

/-- The cursor behind one character and with the rest of the text. -/
def past (cursor : Cursor) (c : Char) (rest : List Char) : Cursor :=
  if c = '\n' then ⟨rest, cursor.offset + 1, cursor.line + 1, 0⟩
  else ⟨rest, cursor.offset + 1, cursor.line, cursor.column + 1⟩

def skip (cursor : Cursor) (count : Nat) : Cursor :=
  ⟨cursor.rest.drop count, cursor.offset + count, cursor.line, cursor.column + count⟩

end Cursor

/-- Cuts off a word of a plain scalar: everything up to a gap, a colon before a gap, or in a flow
collection one of its marks. -/
def cutWord (inFlow : Bool) (word : List Char) : List Char → Option (List Char × List Char)
  | [] => some (word.reverse, [])
  | c :: rest =>
      if isGap c then some (word.reverse, c :: rest)
      else if inFlow && c = ':' && (rest.head?.any fun next => isFlowMark next || next = '?') then
        none
      else if (c = ':' && startsGap rest) || (inFlow && isFlowMark c) then
        some (word.reverse, c :: rest)
      else cutWord inFlow (c :: word) rest

/-- Cuts off a gap. A tab cannot stand where a line has to be indented. -/
def cutGap (indent : Nat) (gap : Gap) (cursor : Cursor) : List Char → Option (Gap × Cursor)
  | [] => some (gap, { cursor with rest := [] })
  | c :: rest =>
      if isGap c then
        if c = '\t' && gap.isOpen && decide (cursor.column < indent) then none
        else cutGap indent (gap.push c) (cursor.past c rest) rest
      else some (gap, { cursor with rest := c :: rest })

/-- Cuts off a plain scalar behind `text`, which is followed by a gap. The answer tells whether a
line end stands behind the scalar. -/
def cutPlain (inFlow : Bool) (indent : Nat) (text : List Char) (gap : Gap) (cursor : Cursor) :
    Option (List Char × Bool × Cursor) :=
  if (cursor.column = 0 && isDocumentMark cursor.rest) || cursor.rest.head? = some '#' then
    some (text, gap.isOpen, cursor)
  else do
    let (word, behind) ← cutWord inFlow [] cursor.rest
    let skipped := cursor.skip word.length
    let text := if word.isEmpty then text else text ++ gap.folded ++ word
    let gap := if word.isEmpty then gap else Gap.none
    if behind.head?.any isGap then
      let (gap, next) ← cutGap indent gap skipped behind
      if ! inFlow && decide (next.column < indent) then return (text, gap.isOpen, next)
      else if next.rest.length < cursor.rest.length then cutPlain inFlow indent text gap next
      else none
    else return (text, gap.isOpen, skipped)
  termination_by cursor.rest.length

def hexNumber? (digits : List Char) : Option Nat :=
  digits.foldlM (fun value digit =>
    if digit.isDigit then some (16 * value + (digit.toNat - '0'.toNat))
    else if 'a' ≤ digit ∧ digit ≤ 'f' then some (16 * value + (digit.toNat - 'a'.toNat + 10))
    else if 'A' ≤ digit ∧ digit ≤ 'F' then some (16 * value + (digit.toNat - 'A'.toNat + 10))
    else none) 0

/-- The character that hexadecimal digits name, if there is one. -/
def hexChar? (digits : List Char) : Option Char := do
  let code ← hexNumber? digits
  if code.isValidChar then some (Char.ofNat code) else none

def escapes : List (Char × Char) := [
  ('0', '\x00'), ('a', '\x07'), ('b', '\x08'), ('t', '\t'), ('\t', '\t'), ('n', '\n'),
  ('v', '\x0b'), ('f', '\x0c'), ('r', '\r'), ('e', '\x1b'), (' ', ' '), ('"', '"'), ('/', '/'),
  ('\\', '\\'), ('N', '\u0085'), ('_', '\u00a0'), ('L', '\u2028'), ('P', '\u2029')]

/-- Cuts off the rest of an escape behind its backslash: the character and how long the escape
is. -/
def cutEscape : List Char → Option (Char × Nat)
  | 'x' :: rest => (hexChar? (rest.take 2)).bind fun c =>
      if rest.length < 2 then none else some (c, 3)
  | 'u' :: rest => (hexChar? (rest.take 4)).bind fun c =>
      if rest.length < 4 then none else some (c, 5)
  | 'U' :: rest => (hexChar? (rest.take 8)).bind fun c =>
      if rest.length < 8 then none else some (c, 9)
  | c :: _ => (escapes.lookup c).map fun c => (c, 1)
  | [] => none

/-- Cuts off the rest of a scalar between quotes, with its text so far, last character first, and
the gap behind that. -/
def cutQuoted (double : Bool) (text : List Char) (gap : Gap) (cursor : Cursor) :
    Option (List Char × Cursor) :=
  match cursor.rest with
  | [] => none
  | c :: rest =>
      if cursor.column = 0 && isDocumentMark (c :: rest) then none
      else
        let before := gap.folded.reverse ++ text
        let step (text : List Char) (gap : Gap) (next : Cursor) : Option (List Char × Cursor) :=
          if next.rest.length < cursor.rest.length then cutQuoted double text gap next else none
        if isGap c then step text (gap.push c) (cursor.past c rest)
        else if double then
          if c = '"' then some (before.reverse, cursor.skip 1)
          else if c = '\\' then
            match rest with
            | '\n' :: behind =>
                step before ⟨[], 0, true⟩ ((cursor.skip 1).past '\n' behind)
            | _ => (cutEscape rest).bind fun (escaped, length) =>
                step (escaped :: before) Gap.none (cursor.skip (length + 1))
          else step (c :: before) Gap.none (cursor.skip 1)
        else if c = '\'' then
          if rest.head? = some '\'' then step ('\'' :: before) Gap.none (cursor.skip 2)
          else some (before.reverse, cursor.skip 1)
        else step (c :: before) Gap.none (cursor.skip 1)
  termination_by cursor.rest.length

/-! The scanner. -/

namespace Scanner

def start (text : List Char) : Scanner where
  cursor := ⟨text, 0, 0, 0⟩
  tokens := []
  indents := []
  candidates := [none]
  mayStart := true

def inFlow (scanner : Scanner) : Bool := decide (1 < scanner.candidates.length)

/-- The columns that the contents of the innermost block collection leave free. -/
def indent (scanner : Scanner) : Nat := scanner.indents.headD 0

def emit (scanner : Scanner) (token : Token) : Scanner :=
  { scanner with tokens := token :: scanner.tokens }

def skip (scanner : Scanner) (count : Nat) : Scanner :=
  { scanner with cursor := scanner.cursor.skip count }

/-- Skips blanks, comments and line ends. A tab cannot stand where a block line starts. Behind a
line end outside of flow collections a candidate can start. -/
def skipGap (scanner : Scanner) (comment : Bool) : List Char → Scanner
  | [] => { scanner with cursor := { scanner.cursor with rest := [] } }
  | c :: rest =>
      let next := { scanner with cursor := scanner.cursor.past c rest }
      if c = '\n' then
        skipGap { next with mayStart := scanner.mayStart || ! scanner.inFlow } false rest
      else if comment || c = '#' then skipGap next true rest
      else if c = ' ' || (c = '\t' && (scanner.inFlow || ! scanner.mayStart))
          || (c = '\ufeff' && scanner.cursor.column = 0) then
        skipGap next false rest
      else { scanner with cursor := { scanner.cursor with rest := c :: rest } }

/-- Gives up candidates of earlier lines, and those that are far behind. -/
def expire (scanner : Scanner) : Option Scanner := do
  let isStale := fun (candidate : Candidate) =>
    decide (candidate.line < scanner.cursor.line) ||
      decide (candidate.offset + 1024 < scanner.cursor.offset)
  let candidates ← scanner.candidates.mapM fun candidate =>
    match candidate with
    | some candidate =>
        if ! isStale candidate then some (some candidate)
        else if candidate.required then none
        else some none
    | none => some none
  return { scanner with candidates }

/-- Closes the block collections that are further to the right than a number of free columns. -/
def closeBlocks (scanner : Scanner) (free : Nat) : Scanner :=
  if scanner.inFlow then scanner
  else
    let closed := scanner.indents.takeWhile fun indent => decide (free < indent)
    { scanner with
      indents := scanner.indents.drop closed.length
      tokens := List.replicate closed.length .closeBlock ++ scanner.tokens }

/-- Opens a block collection at a column, if that is further to the right than the last one. The
token stands in front of all tokens but the first `index`. -/
def openBlock (scanner : Scanner) (column index : Nat) (token : Token) : Scanner :=
  if scanner.inFlow || decide (column + 1 ≤ scanner.indent) then scanner
  else
    let behind := scanner.tokens.length - index
    { scanner with
      indents := (column + 1) :: scanner.indents
      tokens := scanner.tokens.take behind ++ token :: scanner.tokens.drop behind }

/-- Gives up the candidate of the innermost collection, unless it has to be a key. -/
def dropCandidate (scanner : Scanner) : Option Scanner :=
  match scanner.candidates with
  | some candidate :: rest =>
      if candidate.required then none else some { scanner with candidates := none :: rest }
  | _ => some scanner

/-- Makes what starts here a candidate, if one can start here. -/
def markCandidate (scanner : Scanner) : Option Scanner :=
  if scanner.mayStart then do
    let scanner ← scanner.dropCandidate
    let required := ! scanner.inFlow && scanner.indent == scanner.cursor.column + 1
    let candidate : Candidate :=
      ⟨scanner.tokens.length, scanner.cursor.offset, scanner.cursor.line, scanner.cursor.column,
        required⟩
    return { scanner with candidates := some candidate :: scanner.candidates.drop 1 }
  else some scanner

def documentMark (scanner : Scanner) (token : Token) : Option Scanner := do
  let scanner ← (scanner.closeBlocks 0).dropCandidate
  return ({ scanner with mayStart := false }.emit token).skip 3

def openFlow (scanner : Scanner) (token : Token) : Option Scanner := do
  let scanner ← scanner.markCandidate
  return ({ scanner with
    candidates := none :: scanner.candidates, mayStart := true }.emit token).skip 1

def closeFlow (scanner : Scanner) (token : Token) : Option Scanner := do
  let scanner ← scanner.dropCandidate
  let candidates := if scanner.inFlow then scanner.candidates.drop 1 else scanner.candidates
  return ({ scanner with candidates, mayStart := false }.emit token).skip 1

def comma (scanner : Scanner) : Option Scanner := do
  let scanner ← scanner.dropCandidate
  return ({ scanner with mayStart := true }.emit .comma).skip 1

/-- Reads the hyphen of an item, which can open a block list. -/
def item (scanner : Scanner) : Option Scanner := do
  if ! scanner.inFlow && ! scanner.mayStart then none
  else
    let scanner := scanner.openBlock scanner.cursor.column scanner.tokens.length .openBlockList
    let scanner ← scanner.dropCandidate
    return ({ scanner with mayStart := true }.emit .item).skip 1

/-- Reads the question mark in front of a key, which can open a block map. -/
def explicitKey (scanner : Scanner) : Option Scanner := do
  if ! scanner.inFlow && ! scanner.mayStart then none
  else
    let scanner := scanner.openBlock scanner.cursor.column scanner.tokens.length .openBlockMap
    let scanner ← scanner.dropCandidate
    return ({ scanner with mayStart := ! scanner.inFlow }.emit .key).skip 1

/-- Reads a colon. It makes the candidate before it a key, which can open a block map; without a
candidate it can open one itself. -/
def colon (scanner : Scanner) : Option Scanner :=
  match scanner.candidates with
  | some candidate :: rest =>
      let behind := scanner.tokens.length - candidate.index
      let marked := { scanner with
        candidates := none :: rest
        mayStart := false
        tokens := scanner.tokens.take behind ++ Token.key :: scanner.tokens.drop behind }
      let opened := marked.openBlock candidate.column candidate.index .openBlockMap
      some ((opened.emit .value).skip 1)
  | _ =>
      if scanner.inFlow then some (({ scanner with mayStart := false }.emit .value).skip 1)
      else if scanner.mayStart then
        let opened :=
          scanner.openBlock scanner.cursor.column scanner.tokens.length .openBlockMap
        some (({ opened with mayStart := true }.emit .value).skip 1)
      else none

def quoted (scanner : Scanner) (double : Bool) : Option Scanner := do
  let scanner ← scanner.markCandidate
  let (text, cursor) ← cutQuoted double [] Gap.none (scanner.cursor.skip 1)
  return { scanner with cursor, mayStart := false }.emit (.scalar false text)

def plain (scanner : Scanner) : Option Scanner := do
  let scanner ← scanner.markCandidate
  let (text, isOpen, cursor) ← cutPlain scanner.inFlow scanner.indent [] Gap.none scanner.cursor
  return { scanner with cursor, mayStart := isOpen }.emit (.scalar true text)

/-- Whether a plain scalar can start with a character and what stands behind it. -/
def startsPlain (scanner : Scanner) (c : Char) (rest : List Char) : Bool :=
  if c = '-' then ! rest.head?.any isBlank
  else if c = '?' || c = ':' then ! scanner.inFlow && ! startsGap rest
  else ! isGap c && ! isFlowMark c &&
    ! ['#', '&', '*', '!', '|', '>', '\'', '"', '%', '@', '\x60'].contains c

/-- Reads one token at a character and with what stands behind it. -/
def token (scanner : Scanner) (c : Char) (rest : List Char) : Option Scanner :=
  if scanner.cursor.column = 0 && c = '%' then none
  else if scanner.cursor.column = 0 && isDocumentMark (c :: rest) then
    scanner.documentMark (if c = '-' then .documentStart else .documentEnd)
  else match c with
    | '[' => scanner.openFlow .openList
    | '\x7b' => scanner.openFlow .openMap
    | ']' => scanner.closeFlow .closeList
    | '\x7d' => scanner.closeFlow .closeMap
    | ',' => scanner.comma
    | '"' => scanner.quoted true
    | '\'' => scanner.quoted false
    | c =>
        if c = '-' && startsGap rest then scanner.item
        else if c = '?' && (scanner.inFlow || startsGap rest) then scanner.explicitKey
        else if c = ':' && (scanner.inFlow || startsGap rest) then scanner.colon
        else if scanner.startsPlain c rest then scanner.plain
        else none

/-- The tokens of the rest of the text, or `none` if something in it cannot start a token. Every
token is at least one character long. -/
def run (scanner : Scanner) : Option (List Token) := do
  let next := scanner.skipGap false scanner.cursor.rest
  let next ← next.expire
  match next.cursor.rest with
  | [] =>
      let next ← (next.closeBlocks 0).dropCandidate
      return next.tokens.reverse
  | c :: rest =>
      let next ← (next.closeBlocks (next.cursor.column + 1)).token c rest
      if next.cursor.rest.length < scanner.cursor.rest.length then run next else none
  termination_by scanner.cursor.rest.length

end Scanner

/-- The tokens of a text. A mark of the byte order may stand in front of it. -/
def tokens (text : String) : Option (List Token) :=
  let body := if text.toList.head? = some '\ufeff' then text.toList.drop 1 else text.toList
  if body.all isPrintable then (Scanner.start (withLineFeeds body)).run else none

end TopicLint.Yaml
