import TopicLint.Xml.Prolog

/-! References in text and in attribute values: to a character by its number, to one of the five
predefined characters, or to an entity. Here too it is settled how line breaks and blanks that
stand in the source are read. -/

namespace TopicLint.Xml

inductive Chunk where
  | plain (c : Char)
  | char (c : Char)
  | entity (name : String)
  deriving DecidableEq, Repr

namespace Chunk

def hexDigit (c : Char) : Nat :=
  if c.isDigit then c.toNat - '0'.toNat else c.toLower.toNat - 'a'.toNat + 10

def isHexDigit (c : Char) : Bool := c.isDigit || ('a' ≤ c.toLower && c.toLower ≤ 'f')

/-- The character with a number: the replacement character if none has it. The number has to fit
32 bits and the character has to be allowed. -/
def numbered (n : Nat) : Option Char :=
  if n < 0x100000000 then
    let c := if n.isValidChar then Char.ofNat n else '\uFFFD'
    if isAllowed c then some c else none
  else none

def predefined : List (String × Char) :=
  [("quot", '"'), ("amp", '&'), ("apos", '\''), ("lt", '<'), ("gt", '>')]

/-- What a reference stands for, given the text between its ampersand and its semicolon. -/
def ofReference (body : List Char) : Option Chunk :=
  match body with
  | '#' :: 'x' :: digits =>
      if digits.isEmpty || ! digits.all isHexDigit then none
      else (numbered (digits.foldl (fun n c => 16 * n + hexDigit c) 0)).map .char
  | '#' :: digits =>
      if digits.isEmpty || ! digits.all Char.isDigit then none
      else (numbered (digits.foldl (fun n c => 10 * n + hexDigit c) 0)).map .char
  | first :: more =>
      if startsName first && more.all continuesName then
        match predefined.lookup (String.ofList body) with
        | some c => some (.char c)
        | none => some (.entity (String.ofList body))
      else none
  | [] => none

/-- Cuts raw text into chunks; a reference that is not well-formed is refused. -/
def ofRaw : List Char → Option (List Chunk)
  | [] => some []
  | c :: rest =>
      if c = '&' then
        let body := rest.takeWhile (· != ';')
        if body.length < rest.length then do
          let chunk ← ofReference body
          return chunk :: (← ofRaw (rest.drop (body.length + 1)))
        else none
      else (ofRaw rest).map (.plain c :: ·)
  termination_by raw => raw.length
  decreasing_by all_goals grind

end Chunk

/-- Adds a character to text that is held backwards. A carriage return becomes a line break as soon
as the next character is known, or at the end, and a line break behind it is dropped. -/
def pushText (c : Char) (isLast : Bool) : List Char → List Char
  | '\r' :: older =>
      if isLast && c == '\r' then '\n' :: '\n' :: older
      else if c == '\n' then '\n' :: older
      else c :: '\n' :: older
  | text => if isLast && c == '\r' then '\n' :: text else c :: text

def literalText (raw : List Char) : String := String.ofList (go [] raw).reverse
where
  go (text : List Char) : List Char → List Char
    | [] => text
    | c :: rest => go (pushText c rest.isEmpty text) rest

/-- A character of an attribute value: blanks of every kind become a space. -/
def attributeChar (c : Char) : Char := if isSpace c then ' ' else c

/-- Carriage returns before line breaks count as one blank together with them. -/
def dropReturns : List Char → List Char
  | '\r' :: '\n' :: rest => '\n' :: dropReturns rest
  | c :: rest => c :: dropReturns rest
  | [] => []

/-- How often entities may be referred to inside the text of an entity, before the reference to
that entity from outside is done with. -/
def referenceLimit : Nat := 255

/-- Counts a reference, if it stands inside the text of an entity. -/
def countReference (inside : Bool) (count : Nat) : Option Nat :=
  if inside then if count < referenceLimit then some (count + 1) else none else some count

/-- The value of an attribute, with the count of nested references so far. Entities may be nested
to the given depth. Inside the text of an entity characters given by number are read like written
ones, and none of them may be a less-than sign. -/
def attributeValue (entities : List Entity) :
    Nat → Bool → Nat → List Char → Option (List Char × Nat)
  | depth, inside, count, raw => do
      let chunks ← Chunk.ofRaw (dropReturns raw)
      let (value, count) ← chunks.foldlM (fun (value, count) chunk =>
        match chunk with
        | .plain c => some (attributeChar c :: value, count)
        | .char c =>
            if inside then if c == '<' then none else some (attributeChar c :: value, count)
            else some (c :: value, count)
        | .entity name =>
            match depth, entities.find? (·.name == name) with
            | deeper + 1, some entity => do
                let count ← countReference inside count
                let (text, count) ← attributeValue entities deeper true count entity.text.rest
                return (text.reverse ++ value, if inside then count else 0)
            | _, _ => none)
        ([], count)
      return (value.reverse, count)

end TopicLint.Xml
