/-! Reading JSON. A text is first cut into tokens; a machine with a stack of open lists and objects
then puts them together. A text in a value may name halves of characters by their escapes: such a
text has its place in a value but cannot be used. -/

namespace TopicLint.Json

inductive Source where
  | null
  | bool (value : Bool)
  | number (literal : List Char)
  /-- A text, or `none` if its escapes name a half of a character. -/
  | text (value : Option String)
  | list (items : List Source)
  /-- The fields in their order, with all that share a name. -/
  | object (fields : List (Option String × Source))

/-- A token: one of the marks of lists and objects, or a value without parts. -/
inductive Token where
  | mark (c : Char)
  | scalar (value : Source)

/-! Texts. -/

/-- What a text is made of: characters, and halves of characters that escapes name. -/
inductive Piece where
  | char (c : Char)
  | half (code : Nat)

def hexValue? (c : Char) : Option Nat :=
  if c.isDigit then some (c.toNat - '0'.toNat)
  else if 'a' ≤ c ∧ c ≤ 'f' then some (c.toNat - 'a'.toNat + 10)
  else if 'A' ≤ c ∧ c ≤ 'F' then some (c.toNat - 'A'.toNat + 10)
  else none

def hexNumber? (digits : List Char) : Option Nat :=
  digits.foldlM (fun value digit => (hexValue? digit).map (16 * value + ·)) 0

def isHigh (code : Nat) : Bool := decide (0xD800 ≤ code) && decide (code < 0xDC00)

/-- Whether a code is the second half of a character. -/
def isLow (code : Nat) : Bool := decide (0xDC00 ≤ code) && decide (code < 0xE000)

/-- The piece of a text that a code of four digits names. -/
def Piece.ofCode (code : Nat) : Piece :=
  if isHigh code || isLow code then half code else char (Char.ofNat code)

def escaped? (c : Char) : Option Char :=
  [('"', '"'), ('\\', '\\'), ('/', '/'), ('b', '\x08'), ('f', '\x0c'), ('n', '\n'), ('r', '\r'),
    ('t', '\t')].lookup c

/-- Reads a text up to its closing quote. `before` holds its pieces so far, last one first. -/
def cutText (before : List Piece) : List Char → Option (List Piece × List Char)
  | '"' :: rest => some (before.reverse, rest)
  | '\\' :: 'u' :: a :: b :: c :: d :: rest =>
      match hexNumber? [a, b, c, d] with
      | some code => cutText (Piece.ofCode code :: before) rest
      | none => none
  | '\\' :: c :: rest =>
      match escaped? c with
      | some c => cutText (.char c :: before) rest
      | none => none
  | c :: rest => if c.toNat < 0x20 then none else cutText (.char c :: before) rest
  | [] => none

/-- Puts halves together. A half without the other one spoils a text. -/
def joined : List Piece → Option (List Char)
  | .char c :: rest => (joined rest).map (c :: ·)
  | .half high :: .half low :: rest =>
      if isHigh high && isLow low then
        (joined rest).map (Char.ofNat (0x10000 + (high - 0xD800) * 0x400 + (low - 0xDC00)) :: ·)
      else none
  | .half _ :: _ => none
  | [] => some []

/-! Numbers and words. -/

def areDigits (cs : List Char) : Bool := ! cs.isEmpty && cs.all Char.isDigit

/-- Whether some characters are digits without a needless zero. -/
def isWhole (cs : List Char) : Bool := areDigits cs && (cs.length == 1 || cs.head? != some '0')

/-- Whether some characters are nothing or the exponent of a number. -/
def isExponent : List Char → Bool
  | [] => true
  | e :: '+' :: digits | e :: '-' :: digits => (e = 'e' || e = 'E') && areDigits digits
  | e :: digits => (e = 'e' || e = 'E') && areDigits digits

/-- Whether some characters are a number without sign. -/
def isUnsigned (cs : List Char) : Bool :=
  let rest := cs.dropWhile Char.isDigit
  isWhole (cs.takeWhile Char.isDigit) &&
    match rest with
    | '.' :: fraction =>
        areDigits (fraction.takeWhile Char.isDigit) && isExponent (fraction.dropWhile Char.isDigit)
    | rest => isExponent rest

def isNumber : List Char → Bool
  | '-' :: rest => isUnsigned rest
  | cs => isUnsigned cs

/-- Whether a character can stand in a number or a word. -/
def isPlain (c : Char) : Bool := c.isAlphanum || c = '+' || c = '-' || c = '.'

def plain? (cs : List Char) : Option Source :=
  if cs = "null".toList then some .null
  else if cs = "true".toList then some (.bool true)
  else if cs = "false".toList then some (.bool false)
  else if isNumber cs then some (.number cs)
  else none

/-! Tokens. -/

def isSpace (c : Char) : Bool := c = ' ' || c = '\t' || c = '\n' || c = '\r'

def isMark (c : Char) : Bool := ['[', ']', '\x7b', '\x7d', ':', ','].contains c

/-- Cuts off the first token of a text that does not start with a space. -/
def cutToken : List Char → Option (Token × List Char)
  | [] => none
  | '"' :: rest => (cutText [] rest).map fun (pieces, behind) =>
      (.scalar (.text ((joined pieces).map String.ofList)), behind)
  | c :: rest =>
      if isMark c then some (.mark c, rest)
      else (plain? ((c :: rest).takeWhile isPlain)).map fun value =>
        (.scalar value, (c :: rest).dropWhile isPlain)

/-- The tokens of a text, or `none` if something in it is not a token. Every token is at least one
character long. -/
def tokens : List Char → Option (List Token)
  | [] => some []
  | c :: rest =>
      if isSpace c then tokens rest
      else match cutToken (c :: rest) with
        | none => none
        | some (token, behind) =>
            if behind.length < (c :: rest).length then (tokens behind).map (token :: ·) else none
  termination_by cs => cs.length
  decreasing_by all_goals grind

/-! Values. -/

/-- A list or an object that is still open. -/
inductive Frame where
  | list (done : List Source)
  /-- The fields so far, last one first, and the name of the next one. -/
  | field (done : List (Option String × Source)) (name : Option String)

inductive State where
  | value (stack : List Frame)
  | firstItem (stack : List Frame)
  | firstName (stack : List Frame)
  | name (done : List (Option String × Source)) (stack : List Frame)
  | colon (done : List (Option String × Source)) (name : Option String) (stack : List Frame)
  /-- The end of what holds a value, or a comma. -/
  | behind (value : Source) (stack : List Frame)

namespace State

def start (stack : List Frame) : Token → Option State
  | .scalar item => some (.behind item stack)
  | .mark '[' => some (.firstItem stack)
  | .mark '\x7b' => some (.firstName stack)
  | .mark _ => none

def next : State → Token → Option State
  | value stack, token => start stack token
  | firstItem stack, .mark ']' => some (behind (.list []) stack)
  | firstItem stack, token => start (.list [] :: stack) token
  | firstName stack, .mark '\x7d' => some (behind (.object []) stack)
  | firstName stack, .scalar (.text field) => some (colon [] field stack)
  | name done stack, .scalar (.text field) => some (colon done field stack)
  | colon done field stack, .mark ':' => some (value (.field done field :: stack))
  | behind item (.list done :: stack), .mark ',' => some (value (.list (item :: done) :: stack))
  | behind item (.list done :: stack), .mark ']' =>
      some (behind (.list (item :: done).reverse) stack)
  | behind item (.field done field :: stack), .mark ',' => some (name ((field, item) :: done) stack)
  | behind item (.field done field :: stack), .mark '\x7d' =>
      some (behind (.object ((field, item) :: done).reverse) stack)
  | _, _ => none

def finish : State → Option Source
  | behind item [] => some item
  | _ => none

end State

/-- The value that a text writes, or `none` if it writes none. -/
def read (text : String) : Option Source := do
  let tokens ← tokens text.toList
  let state ← tokens.foldlM State.next (State.value [])
  state.finish

end TopicLint.Json
