import TopicLint.Xml.Piece

/-! What stands around the root element: the declaration, notes, and the document type, of which
only the entities that it declares matter. -/

namespace TopicLint.Xml

/-- An entity with a text of its own, and where that text stands. -/
structure Entity where
  name : String
  text : Source
  deriving DecidableEq, Repr

namespace Scan

def declaration : Scan Unit := do
  if ← ahead "<?xml " then
    skip 5
    spaces
    if ! (← ahead "version") then refuse
    let _ ← rawAttribute
    gap
    if ← ahead "encoding" then
      let _ ← rawAttribute
      gap
    if ← ahead "standalone" then
      let _ ← rawAttribute
    spaces
    expect "?>"
where
  gap : Scan Unit := do
    if (← takeWhile isSpace).isEmpty && ! (← ahead "?>") && ! (← atEnd) then refuse

def notes : Scan Unit := repeatWhile do
  spaces
  if ← ahead "<!--" then
    comment
    return true
  else if ← ahead "<?" then
    instruction
    return true
  else return false

/-- Takes the identifier of something outside the document, if one comes next. -/
def externalId : Scan Bool := do
  let isSystem ← ahead "SYSTEM"
  let isPublic ← ahead "PUBLIC"
  if isSystem || isPublic then
    skip 6
    someSpaces
    let _ ← quoted
    if isPublic then
      someSpaces
      let _ ← quoted
    return true
  else return false

/-- The text of an entity, or nothing if the entity stands outside the document. -/
def entityText (isGeneral : Bool) : Scan (Option Source) := do
  match ← peek with
  | some '"' | some '\'' => return some (← quoted)
  | _ =>
      if ← externalId then
        if isGeneral then
          spaces
          if ← ahead "NDATA" then
            skip 5
            someSpaces
            let _ ← name
        return none
      else refuse

def entityDeclaration : Scan (List Entity) := do
  expect "<!ENTITY"
  someSpaces
  let isParameter ← ahead "%"
  if isParameter then
    skip 1
    someSpaces
  let entityName ← name
  someSpaces
  let text ← entityText (! isParameter)
  spaces
  expect ">"
  return (text.map fun source => ⟨String.ofList entityName, source⟩).toList

def otherDeclaration : Scan Unit := do
  let _ ← takeWhile (· != '>')
  expect ">"

/-- Takes one item of a document type; nothing is what ends it. -/
def typeItem : Scan (Option (List Entity)) := do
  spaces
  if ← ahead "<!ENTITY" then return some (← entityDeclaration)
  else if ← ahead "<!--" then
    comment
    return some []
  else if ← ahead "<?" then
    instruction
    return some []
  else if ← ahead "]" then
    skip 1
    spaces
    expect ">"
    return none
  else if (← ahead "<!ELEMENT") || (← ahead "<!ATTLIST") || (← ahead "<!NOTATION") then
    otherDeclaration
    return some []
  else refuse

/-- Takes the items of a document type up to its end. -/
def typeItems (source : Source) : Option (List Entity × Source) :=
  if source.rest.isEmpty then some ([], source)
  else match typeItem source with
    | none => none
    | some (none, after) => some ([], after)
    | some (some entities, after) =>
        if after.rest.length < source.rest.length then
          (typeItems after).map fun (others, last) => (entities ++ others, last)
        else none
  termination_by source.rest.length

/-- Takes the document type, if it comes next, and gives the entities it declares in order. -/
def documentType : Scan (List Entity) := do
  spaces
  if ← ahead "<!DOCTYPE" then
    skip 9
    someSpaces
    let _ ← name
    spaces
    let _ ← externalId
    spaces
    let entities ← do
      if ← ahead ">" then
        skip 1
        pure []
      else if ← ahead "[" then
        skip 1
        typeItems
      else refuse
    notes
    return entities
  else return []

end Scan

end TopicLint.Xml
