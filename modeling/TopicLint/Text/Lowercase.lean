import TopicLint.Text.CaseTable
import TopicLint.Text.Ranges

/-! Lower-casing a text by the full Unicode mapping. Two characters need more than the table: a
capital I with a dot becomes two characters, and a capital sigma takes its final form at the end
of a word. -/

namespace TopicLint.Text

/-- The lower-case form of a character by the simple mapping. -/
def lowerChar (c : Char) : Char :=
  if c.toNat < 0x80 then c.toLower
  else match lowercaseRuns.find? (·.covers c.toNat) with
    | some run => Char.ofNat (c.toNat + run.shift).toNat
    | none => c

/-- Whether the first character that is not case-ignorable is cased. -/
def meetsCased (s : List Char) : Bool :=
  match s.dropWhile fun c => inRanges caseIgnorableRanges c.toNat with
  | [] => false
  | c :: _ => inRanges casedRanges c.toNat

/-- The lower-case form of a capital sigma between `before`, which is read backwards, and
`after`: final if a letter comes before it and none after. -/
def lowerSigma (before after : List Char) : Char :=
  if meetsCased before && ! meetsCased after then 'ς' else 'σ'

/-- Lower-cases the characters of a text that follow those of `before`, which is reversed. -/
def lowerFrom (before : List Char) : List Char → List Char
  | [] => []
  | c :: rest =>
      let here :=
        if c = 'Σ' then [lowerSigma before rest]
        else if c = 'İ' then ['i', '\u0307']
        else [lowerChar c]
      here ++ lowerFrom (c :: before) rest

def lowercase (s : String) : String := String.ofList (lowerFrom [] s.toList)

end TopicLint.Text
