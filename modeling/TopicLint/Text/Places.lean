/-! Matching a list of items from left to right. While a pattern is matched, a list tells for each
place in the items whether the parts so far can end there; it starts with the place before the first
item, so it is one longer than the items. -/

namespace TopicLint.Text

/-- The places in a list of items that the parts of a pattern so far can end at. -/
abbrev Places := List Bool

namespace Places

variable {α : Type}

def start (items : List α) : Places := true :: items.map fun _ => false

def step (fine : α → Bool) (items : List α) (places : Places) : Places :=
  false :: List.zipWith (fun place item => place && fine item) places items

/-- Goes any number of items on. `reached` tells whether a place before these is one already. -/
def spread (reached : Bool) : Places → Places
  | [] => []
  | place :: rest => (reached || place) :: spread (reached || place) rest

def union (first second : Places) : Places := List.zipWith (· || ·) first second

def none (places : Places) : Places := places.map fun _ => false

def atEnd (places : Places) : Bool := places.getLast? == some true

end Places

end TopicLint.Text
