import TopicLint.Xml.Scan

/-! The pieces of XML content as they are written: start tags, end tags, text, and notes. What
references stand for and which element a tag belongs to is left open. -/

namespace TopicLint.Xml

/-- A name as it is written, cut at its colon. Without a colon the first part is empty. -/
structure Written where
  lead : String
  base : String
  deriving DecidableEq, Repr

/-- An attribute as it is written. -/
structure RawAttribute where
  name : Written
  value : List Char
  deriving DecidableEq, Repr

inductive Piece where
  | start (name : Written) (attributes : List RawAttribute) (line column : Nat) (closed : Bool)
  | finish (name : Written)
  | text (raw : List Char)
  | literal (raw : List Char)
  | note
  deriving DecidableEq, Repr

namespace Scan

/-- Takes a name with at most one colon. Each part has to start as a name does, but the part before
the colon may be empty. -/
def written : Scan Written := do
  let whole ← takeWhile continuesName
  let (lead, base) :=
    if whole.contains ':' then
      (whole.takeWhile (· != ':'), (whole.dropWhile (· != ':')).drop 1)
    else ([], whole)
  if base.contains ':' || ! (lead.head?.map startsName).getD true
      || ! (base.head?.map startsName).getD false then refuse
  return ⟨String.ofList lead, String.ofList base⟩

/-- Takes an attribute. Its value may hold any allowed character but a less-than sign. -/
def rawAttribute : Scan RawAttribute := do
  let name ← written
  spaces
  expect "="
  spaces
  let mark ← quotationMark
  let value ← takeWhile fun c => c != mark && c != '<'
  if ! value.all isAllowed then refuse
  expect (String.singleton mark)
  return ⟨name, value⟩

/-- How a start tag ends: its element has content, or none; or the text stops inside the tag. -/
inductive TagEnd where
  | opens
  | closes
  | missing
  deriving DecidableEq, Repr

/-- Takes the attributes of a start tag and the end of the tag. -/
def tagRest (source : Source) : Option ((List RawAttribute × TagEnd) × Source) :=
  let (gap, here) := run isSpace source.rest source.line source.column
  match here.rest with
  | [] => if gap.isEmpty then some (([], .missing), here) else none
  | '/' :: _ => (do skip 1; expect ">"; return ([], .closes) : Scan _) here
  | '>' :: _ => (do skip 1; return ([], .opens) : Scan _) here
  | _ =>
      if gap.isEmpty then none
      else match rawAttribute here with
        | none => none
        | some (next, after) =>
            if after.rest.length < source.rest.length then
              (tagRest after).map fun ((others, tagEnd), last) => ((next :: others, tagEnd), last)
            else none
  termination_by source.rest.length

/-- Takes a start tag. One that the text stops in stands for nothing. -/
def startTag : Scan Piece := do
  let here ← get
  expect "<"
  let name ← written
  let (attributes, tagEnd) ← tagRest
  match tagEnd with
  | .missing => return .note
  | .opens => return .start name attributes here.line here.column false
  | .closes => return .start name attributes here.line here.column true

def endTag : Scan Piece := do
  expect "</"
  let name ← written
  spaces
  expect ">"
  return .finish name

/-- Takes a comment, which may not hold two hyphens in a row nor end with one. -/
def comment : Scan Unit := do
  expect "<!--"
  let text ← takeUntil "-->"
  if (before ['-', '-'] text).length < text.length || text.getLast? == some '-' then refuse

/-- Takes a processing instruction; a declaration is not one. -/
def instruction : Scan Unit := do
  if ← ahead "<?xml " then refuse
  expect "<?"
  let _ ← name
  spaces
  let _ ← takeUntil "?>"

def literal : Scan Piece := do
  expect "<![CDATA["
  return .literal (← takeUntil "]]>")

/-- Takes text up to the next tag. The end of a literal section may not stand in it. -/
def rawText : Scan Piece := do
  let text ← takeWhile (· != '<')
  if ! text.all isAllowed || (before "]]>".toList text).length < text.length then refuse
  return .text text

def piece : Scan Piece := do
  if ← ahead "<!--" then
    comment
    return .note
  else if ← ahead "<![CDATA[" then literal
  else if ← ahead "<!" then refuse
  else if ← ahead "<?" then
    instruction
    return .note
  else if ← ahead "</" then endTag
  else if ← ahead "<" then startTag
  else rawText

/-- Takes pieces of content up to the end tag that belongs to none of them, or to the end. The
number says how many elements have been started and not ended. -/
def pieces (depth : Nat) (source : Source) : Option (List Piece × Source) :=
  if source.rest.isEmpty then some ([], source)
  else match piece source with
    | none => none
    | some (item, after) =>
        if after.rest.length < source.rest.length then
          match item, depth with
          | .finish _, 0 => some ([item], after)
          | .finish _, outer + 1 => (pieces outer after).map fun (items, last) => (item :: items, last)
          | .start _ _ _ _ false, _ =>
              (pieces (depth + 1) after).map fun (items, last) => (item :: items, last)
          | _, _ => (pieces depth after).map fun (items, last) => (item :: items, last)
        else none
  termination_by source.rest.length

end Scan

end TopicLint.Xml
