/-! JSON values and the text they are written as: two blanks for each level, a list or an object
without entries on one line. -/

namespace TopicLint

/-- A JSON value that a report holds. -/
inductive Json where
  | number (value : Nat)
  | text (value : String)
  | list (items : List Json)
  | object (fields : List (String × Json))

namespace Json

/-- The lower-case hexadecimal digit of a number below 16. -/
def hexDigit (n : Nat) : Char := Nat.digitChar n

/-- A character as it stands between quotes. Quotes, backslashes and the control characters below
the blank are escaped, everything else stands as it is. -/
def escape (c : Char) : List Char :=
  match c with
  | '"' => ['\\', '"']
  | '\\' => ['\\', '\\']
  | '\x08' => ['\\', 'b']
  | '\t' => ['\\', 't']
  | '\n' => ['\\', 'n']
  | '\x0c' => ['\\', 'f']
  | '\r' => ['\\', 'r']
  | c =>
      if c.toNat < 0x20 then
        ['\\', 'u', '0', '0', hexDigit (c.toNat / 16), hexDigit (c.toNat % 16)]
      else [c]

def quoted (text : String) : String :=
  "\"" ++ String.ofList (text.toList.flatMap escape) ++ "\""

def newline (level : Nat) : String := "\n" ++ String.ofList (List.replicate (2 * level) ' ')

/-- Entries between two brackets, each on lines of its own one level further in. -/
def enclosed (opening closing : String) (level : Nat) (entries : List String) : String :=
  if entries.isEmpty then opening ++ closing
  else opening ++ newline (level + 1) ++ (("," ++ newline (level + 1)).intercalate entries)
    ++ newline level ++ closing

mutual

def written (level : Nat) : Json → String
  | number value => toString value
  | text value => quoted value
  | list items => enclosed "[" "]" level (writtenItems (level + 1) items)
  | object fields => enclosed "\x7b" "\x7d" level (writtenFields (level + 1) fields)

def writtenItems (level : Nat) : List Json → List String
  | [] => []
  | item :: rest => written level item :: writtenItems level rest

def writtenFields (level : Nat) : List (String × Json) → List String
  | [] => []
  | (name, value) :: rest =>
      (quoted name ++ ": " ++ written level value) :: writtenFields level rest

end

def pretty (value : Json) : String := written 0 value

end Json

end TopicLint
