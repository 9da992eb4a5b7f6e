import TopicLint.Rule.Token

/-! Reading tokens one at a time. A reader holds the lines it has not cut yet and scans the next
one only when the tokens of the last one are used up. -/

namespace TopicLint.Rule

/-- A place between the tokens of a source. -/
structure Reader where
  current : Token
  /-- The tokens of the current line behind it. -/
  pending : List Token
  unread : List (List Char)
  line : Nat
  /-- Whether the token at the end has been taken. -/
  finished : Bool
  deriving Repr

namespace Reader

/-- Cuts lines until one has a token, and makes its first token the current one. Without such a
line the current token is the one at the end. -/
def refill (reader : Reader) : List (List Char) → Nat → Reader
  | [], line => { reader with
      current := Token.ending (max 1 line), pending := [], unread := [], line := line }
  | text :: rest, line =>
      match scanLine (line + 1) 1 text with
      | [] => refill reader rest (line + 1)
      | token :: more => { reader with
          current := token, pending := more, unread := rest, line := line + 1 }

/-- Moves to the next token, and stays at the end once it is reached. -/
def advance (reader : Reader) : Reader :=
  match reader.pending with
  | token :: more => { reader with current := token, pending := more }
  | [] => refill reader reader.unread reader.line

def start (source : String) : Reader :=
  advance ⟨Token.ending 1, [], sourceLines source, 0, false⟩

def ahead (reader : Reader) : Nat :=
  reader.pending.length + (reader.unread.flatten.length + reader.unread.length)

/-- Moves to the nearest token that is not blank, this one included, within a number of moves. -/
def skipBlankWithin : Nat → Reader → Reader
  | 0, reader => reader
  | moves + 1, reader =>
      if reader.current.isBlank then skipBlankWithin moves reader.advance else reader

/-- Moves to the nearest token that is not blank, this one included. -/
def skipBlank (reader : Reader) : Reader := skipBlankWithin (reader.ahead + 1) reader

/-- Takes the current token and moves on. The token at the end is taken once. -/
def next (reader : Reader) : Option Token × Reader :=
  if reader.finished then (none, reader)
  else if reader.current.kind == .finish then (some reader.current, { reader with finished := true })
  else (some reader.current, reader.advance)

end Reader

end TopicLint.Rule
