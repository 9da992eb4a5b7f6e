import TopicLint.Yaml.Token

/-! Putting the tokens of YAML together. Where a value is missing, an empty plain scalar takes its
place. -/

namespace TopicLint.Yaml

inductive Value where
  /-- A scalar. A plain one is written without quotes. -/
  | scalar (plain : Bool) (text : String)
  | list (items : List Value)
  | map (fields : List (Value × Value))

def Value.missing : Value := .scalar true ""

def endsItem : List Token → Bool
  | .item :: _ | .closeBlock :: _ => true
  | _ => false

/-- Whether no key or value of a block map stands here. -/
def endsField : List Token → Bool
  | .key :: _ | .value :: _ | .closeBlock :: _ => true
  | _ => false

/-- Whether no key of a flow map, or no value in a flow collection, stands here. -/
def endsFlow : List Token → Bool
  | .value :: _ | .comma :: _ | .closeMap :: _ | .closeList :: _ => true
  | _ => false

/-- Reads over the comma in front of all entries of a flow collection but the first. -/
def nextEntry (first : Bool) : List Token → Option (List Token)
  | .comma :: rest => if first then none else some rest
  | tokens => if first then some tokens else none

mutual

/-- Reads a value. `block` tells whether a block collection can stand here, and `bare` whether the
hyphens of a list can stand here without being further to the right. Each step takes a token or goes
from a value to a part of it, so twice as many steps as there are tokens are enough. -/
def value (block bare : Bool) : Nat → List Token → Option (Value × List Token)
  | 0, _ => none
  | steps + 1, tokens =>
      match tokens with
      | .scalar plain text :: rest => some (.scalar plain (String.ofList text), rest)
      | .openList :: rest => flowItems true [] steps rest
      | .openMap :: rest => flowFields true [] steps rest
      | .openBlockList :: rest => if block then blockItems [] steps rest else none
      | .openBlockMap :: rest => if block then blockFields [] steps rest else none
      | .item :: _ => if bare then bareItems [] steps tokens else none
      | _ => none

/-- Reads the items of a block list, with those before them, last one first. -/
def blockItems (done : List Value) : Nat → List Token → Option (Value × List Token)
  | 0, _ => none
  | steps + 1, .item :: rest =>
      if endsItem rest then blockItems (.missing :: done) steps rest
      else match value true false steps rest with
        | some (item, rest) => blockItems (item :: done) steps rest
        | none => none
  | _ + 1, .closeBlock :: rest => some (.list done.reverse, rest)
  | _ + 1, _ => none

/-- Reads the items of a list whose hyphens stand below the key of the list. -/
def bareItems (done : List Value) : Nat → List Token → Option (Value × List Token)
  | 0, _ => none
  | steps + 1, .item :: rest =>
      if endsItem rest || endsField rest then bareItems (.missing :: done) steps rest
      else match value true false steps rest with
        | some (item, rest) => bareItems (item :: done) steps rest
        | none => none
  | _ + 1, rest => some (.list done.reverse, rest)

def blockFields (done : List (Value × Value)) : Nat → List Token → Option (Value × List Token)
  | 0, _ => none
  | steps + 1, .key :: rest =>
      match blockPart steps rest with
      | some (key, .value :: rest) =>
          match blockPart steps rest with
          | some (item, rest) => blockFields ((key, item) :: done) steps rest
          | none => none
      | some (key, rest) => blockFields ((key, .missing) :: done) steps rest
      | none => none
  | _ + 1, .closeBlock :: rest => some (.map done.reverse, rest)
  | _ + 1, _ => none

def blockPart : Nat → List Token → Option (Value × List Token)
  | 0, _ => none
  | steps + 1, tokens =>
      if endsField tokens then some (.missing, tokens) else value true true steps tokens

/-- Reads the items of a flow list. A key makes an item that is a map of one field. -/
def flowItems (first : Bool) (done : List Value) : Nat → List Token → Option (Value × List Token)
  | 0, _ => none
  | _ + 1, .closeList :: rest => some (.list done.reverse, rest)
  | steps + 1, tokens =>
      match nextEntry first tokens with
      | some (.closeList :: rest) => some (.list done.reverse, rest)
      | some (.key :: rest) =>
          match flowField steps rest with
          | some (field, rest) => flowItems false (.map [field] :: done) steps rest
          | none => none
      | some rest =>
          match value false false steps rest with
          | some (item, rest) => flowItems false (item :: done) steps rest
          | none => none
      | none => none

/-- Reads the fields of a flow map. A field without a key mark has no value. -/
def flowFields (first : Bool) (done : List (Value × Value)) :
    Nat → List Token → Option (Value × List Token)
  | 0, _ => none
  | _ + 1, .closeMap :: rest => some (.map done.reverse, rest)
  | steps + 1, tokens =>
      match nextEntry first tokens with
      | some (.closeMap :: rest) => some (.map done.reverse, rest)
      | some (.key :: rest) =>
          match flowField steps rest with
          | some (field, rest) => flowFields false (field :: done) steps rest
          | none => none
      | some rest =>
          match value false false steps rest with
          | some (key, rest) => flowFields false ((key, .missing) :: done) steps rest
          | none => none
      | none => none

/-- Reads a field of a flow collection behind the mark of its key. -/
def flowField : Nat → List Token → Option ((Value × Value) × List Token)
  | 0, _ => none
  | steps + 1, tokens =>
      match flowPart steps tokens with
      | some (key, .value :: rest) =>
          match flowPart steps rest with
          | some (item, rest) => some ((key, item), rest)
          | none => none
      | some (key, rest) => some ((key, .missing), rest)
      | none => none

def flowPart : Nat → List Token → Option (Value × List Token)
  | 0, _ => none
  | steps + 1, tokens =>
      if endsFlow tokens then some (.missing, tokens) else value false false steps tokens

end

/-- Reads the value of a document and the marks at its end. -/
def content (tokens : List Token) : Option Value :=
  let behind :=
    match tokens with
    | [] | .documentStart :: _ | .documentEnd :: _ => some (Value.missing, tokens)
    | _ => value true false (4 * tokens.length + 4) tokens
  match behind with
  | some (item, rest) => if rest.all (· == .documentEnd) then some item else none
  | none => none

/-- The value of a text that holds one document or none. -/
def read (text : String) : Option Value :=
  match tokens text with
  | some (.documentStart :: rest) => content rest
  | some tokens => content tokens
  | none => none

end TopicLint.Yaml
