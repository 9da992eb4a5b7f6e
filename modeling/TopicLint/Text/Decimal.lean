/-! Numbers in decimal digits. Where a number is kept it has to fit a word of 64 bits. -/

namespace TopicLint.Text

def decimal (digits : List Char) : Nat :=
  digits.foldl (fun n c => 10 * n + (c.toNat - '0'.toNat)) 0

/-- The numbers that fit a word are those below this one. -/
def wordLimit : Nat := 0x10000000000000000

/-- The number of one or more decimal digits, if it fits a word. -/
def word? (digits : List Char) : Option Nat :=
  if ! digits.isEmpty && digits.all Char.isDigit && decide (decimal digits < wordLimit) then
    some (decimal digits)
  else none

end TopicLint.Text
