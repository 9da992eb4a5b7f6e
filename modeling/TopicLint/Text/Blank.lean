import TopicLint.Text.Ranges

/-! Blank characters, and the operations that remove them: trimming at one end or both, and
splitting a text into words. Blank means the Unicode property White_Space, so a no-break space is
blank and a zero-width space is not. -/

namespace TopicLint.Text

def blankRanges : List (Nat × Nat) := [
  (0x9, 0xD), (0x20, 0x20), (0x85, 0x85), (0xA0, 0xA0), (0x1680, 0x1680), (0x2000, 0x200A),
  (0x2028, 0x2029), (0x202F, 0x202F), (0x205F, 0x205F), (0x3000, 0x3000)]

/-- Whether a character has the property White_Space. -/
def isBlank (c : Char) : Bool := inRanges blankRanges c.toNat

/-- The text from its first character that is not blank. -/
def trimStart (s : String) : String := String.ofList (s.toList.dropWhile isBlank)

/-- The text up to its last character that is not blank. -/
def trimEnd (s : String) : String :=
  String.ofList (s.toList.reverse.dropWhile isBlank).reverse

def trim (s : String) : String := trimEnd (trimStart s)

/-- The pieces of a text between the characters that satisfy `cut`, empty ones included. A text
with `n` such characters has `n + 1` pieces. -/
def pieces (cut : Char → Bool) : List Char → List (List Char)
  | [] => [[]]
  | c :: rest =>
      if cut c then [] :: pieces cut rest else (pieces cut rest).modifyHead (c :: ·)

/-- The words of a text: its longest runs without a blank. -/
def words (s : String) : List String :=
  ((pieces isBlank s.toList).filter (! ·.isEmpty)).map String.ofList

/-- The pieces of a text between the characters that satisfy `cut`. -/
def split (cut : Char → Bool) (s : String) : List String :=
  (pieces cut s.toList).map String.ofList

end TopicLint.Text
