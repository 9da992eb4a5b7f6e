import TopicLint.Document.Node
import TopicLint.Text.Hidden

/-! The text of a node for people who look into queries. -/

namespace TopicLint

namespace Text

def hexDigits (n : Nat) : List Char := Nat.toDigits 16 n

/-- A character of a text in quotes: quotation marks, backslashes and the characters that cannot be
told by sight are escaped. -/
def quotedChar (c : Char) : List Char :=
  if c = '"' then ['\\', '"']
  else if c = '\\' then ['\\', '\\']
  else if c = '\n' then ['\\', 'n']
  else if c = '\r' then ['\\', 'r']
  else if c = '\t' then ['\\', 't']
  else if c = '\x00' then ['\\', '0']
  else if isHidden c then
    ['\\', 'u', '\x7b'] ++ hexDigits c.toNat ++ ['\x7d']
  else [c]

def inQuotes (s : String) : String := String.ofList ('"' :: s.toList.flatMap quotedChar ++ ['"'])

end Text

/-- The text of a node: its name, its number and its place. -/
def Node.shown (doc : Document) (node : Node) : String :=
  match node with
  | .nothing => "Node(EMPTY)"
  | .found id place =>
      "Node \x7b name: " ++ Text.inQuotes (node.name doc) ++ ", id: " ++ toString id ++
        ", position: " ++ toString place ++ " \x7d"

end TopicLint
