import TopicLint.Text.Ranges

/-! Character classes of XML: blanks, the characters a document may hold, and those of names. -/

namespace TopicLint.Xml

def isSpace (c : Char) : Bool := c = ' ' || c = '\t' || c = '\n' || c = '\r'

/-- A character that a document may hold: no control character but tab, line feed and carriage
return, and neither U+FFFE nor U+FFFF. -/
def isAllowed (c : Char) : Bool :=
  if c.toNat < 0x20 then c = '\t' || c = '\n' || c = '\r' else c.toNat != 0xFFFE && c.toNat != 0xFFFF

/-- The characters beyond ASCII that can start a name. -/
def nameStartRanges : List (Nat × Nat) := [
  (0xC0, 0xD6), (0xD8, 0xF6), (0xF8, 0x2FF), (0x370, 0x37D), (0x37F, 0x1FFF), (0x200C, 0x200D),
  (0x2070, 0x218F), (0x2C00, 0x2FEF), (0x3001, 0xD7FF), (0xF900, 0xFDCF), (0xFDF0, 0xFFFD),
  (0x10000, 0xEFFFF)]

/-- The characters beyond ASCII that can only continue a name. -/
def nameInnerRanges : List (Nat × Nat) := [(0xB7, 0xB7), (0x300, 0x36F), (0x203F, 0x2040)]

def startsName (c : Char) : Bool :=
  c.isAlpha || c = ':' || c = '_' || Text.inRanges nameStartRanges c.toNat

def continuesName (c : Char) : Bool :=
  startsName c || c.isDigit || c = '-' || c = '.' || Text.inRanges nameInnerRanges c.toNat

end TopicLint.Xml
