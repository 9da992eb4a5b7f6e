import TopicLint.Xml.Char

/-! Reading XML from left to right. A scan takes characters from the front of a source, which
knows the line and the column it has reached, or refuses. -/

namespace TopicLint.Xml

/-- The unread part of a text and the place where it starts. -/
structure Source where
  rest : List Char
  line : Nat
  column : Nat
  deriving DecidableEq, Repr

def Source.ofString (text : String) : Source := ⟨text.toList, 1, 1⟩

/-- Reads something from the front of a source, or refuses the source. -/
abbrev Scan (α : Type) := StateT Source Option α

namespace Scan

def stepOver (c : Char) (rest : List Char) (line column : Nat) : Source :=
  if c = '\n' then ⟨rest, line + 1, 1⟩ else ⟨rest, line, column + 1⟩

/-- The longest run of characters that satisfy `good`, and the source behind it. -/
def run (good : Char → Bool) : List Char → Nat → Nat → List Char × Source
  | [], line, column => ([], ⟨[], line, column⟩)
  | c :: rest, line, column =>
      if good c then
        let next := stepOver c rest line column
        let (taken, after) := run good rest next.line next.column
        (c :: taken, after)
      else ([], ⟨c :: rest, line, column⟩)

/-- Takes the longest run of characters that satisfy `good`. -/
def takeWhile (good : Char → Bool) : Scan (List Char) := fun source =>
  some (run good source.rest source.line source.column)

def skipped : Nat → List Char → Nat → Nat → Source
  | n + 1, c :: rest, line, column =>
      let next := stepOver c rest line column
      skipped n rest next.line next.column
  | _, rest, line, column => ⟨rest, line, column⟩

def skip (n : Nat) : Scan Unit := fun source =>
  some ((), skipped n source.rest source.line source.column)

def ahead (text : String) : Scan Bool := do
  return text.toList.isPrefixOf (← get).rest

def peek : Scan (Option Char) := do
  return (← get).rest.head?

def atEnd : Scan Bool := do
  return (← get).rest.isEmpty

def refuse {α : Type} : Scan α := fun _ => none

def expect (text : String) : Scan Unit := do
  if ← ahead text then skip text.length else refuse

def spaces : Scan Unit := do
  let _ ← takeWhile isSpace

def someSpaces : Scan Unit := do
  if (← takeWhile isSpace).isEmpty then refuse

/-- The characters before the first place where `stop` comes next, or all if there is none. -/
def before (stop : List Char) : List Char → List Char
  | [] => []
  | c :: rest => if stop.isPrefixOf (c :: rest) then [] else c :: before stop rest

/-- Takes the text before the given one and that one too. Refuses characters that XML does not
allow. -/
def takeUntil (stop : String) : Scan (List Char) := do
  let text := before stop.toList (← get).rest
  if text.all isAllowed then
    skip text.length
    expect stop
    return text
  else refuse

def name : Scan (List Char) := do
  match ← peek with
  | some c => if startsName c then takeWhile continuesName else refuse
  | none => refuse

def quotationMark : Scan Char := do
  match ← peek with
  | some c =>
      if c = '"' || c = '\'' then do
        skip 1
        return c
      else refuse
  | none => refuse

/-- Takes a text in quotation marks, whatever characters it holds. Also tells where it starts. -/
def quoted : Scan Source := do
  let mark ← quotationMark
  let start ← get
  let text ← takeWhile (· != mark)
  expect (String.singleton mark)
  return { start with rest := text }

/-- Repeats a scan as long as something is left and it asks to go on. A round that takes nothing is
the last one. -/
def repeatWhile (round : Scan Bool) (source : Source) : Option (Unit × Source) :=
  if source.rest.isEmpty then some ((), source)
  else match round source with
    | none => none
    | some (goOn, after) =>
        if goOn && after.rest.length < source.rest.length then repeatWhile round after
        else some ((), after)
  termination_by source.rest.length
  decreasing_by simp_all

end Scan

end TopicLint.Xml
