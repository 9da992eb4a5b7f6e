/-! The order of texts: by their first different character, a text before its extensions. -/

namespace TopicLint.Text

/-- Whether a list of characters is not behind another one. -/
def precedes : List Char → List Char → Bool
  | [], _ => true
  | _ :: _, [] => false
  | a :: s, b :: t => if a = b then precedes s t else decide (a.toNat < b.toNat)

def atMost (s t : String) : Bool := precedes s.toList t.toList

end TopicLint.Text
