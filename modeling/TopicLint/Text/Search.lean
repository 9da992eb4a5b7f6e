/-! Looking for one text inside another. -/

namespace TopicLint.Text

def occurs (part : List Char) : List Char → Bool
  | [] => part.isEmpty
  | c :: rest => part.isPrefixOf (c :: rest) || occurs part rest

/-- Whether `part` stands somewhere in `s`. The empty text stands in every text. -/
def contains (s part : String) : Bool := occurs part.toList s.toList

def startsWith (s part : String) : Bool := part.toList.isPrefixOf s.toList

def endsWith (s part : String) : Bool := part.toList.isSuffixOf s.toList

/-- The two sides of the first character equal to `mark`, or `none` if there is none. -/
def cutFirst (mark : Char) : List Char → Option (List Char × List Char)
  | [] => none
  | c :: rest =>
      if c = mark then some ([], rest) else (cutFirst mark rest).map fun (a, b) => (c :: a, b)

def cutFirst? (mark : Char) (s : String) : Option (String × String) :=
  (cutFirst mark s.toList).map fun (a, b) => (String.ofList a, String.ofList b)

/-- The text behind its last `mark`, or the whole text if it holds none. -/
def afterLast (mark : Char) (s : String) : String :=
  String.ofList (s.toList.reverse.takeWhile (· ≠ mark)).reverse

/-- What is behind the item where a search stops is shorter than the whole. -/
theorem length_lt_of_dropWhile {α : Type} {passes : α → Bool} {items behind : List α} {found : α}
    (stops : items.dropWhile passes = found :: behind) : behind.length < items.length := by
  have shorter := (List.dropWhile_suffix (l := items) passes).length_le
  rwa [stops] at shorter

end TopicLint.Text
