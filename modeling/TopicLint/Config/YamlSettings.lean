import TopicLint.Config.Settings
import TopicLint.Yaml.Read

/-! Settings in YAML: a map with the settings as fields, or nothing. -/

namespace TopicLint.Settings

def yamlNulls : List String := ["", "~", "null", "Null", "NULL"]

def yamlText : Yaml.Value → Option String
  | .scalar _ text => some text
  | _ => none

/-- The number that digits of a base write. A plus may stand in front. -/
def wholeOfBase (base : Nat) (text : List Char) : Option Nat :=
  let digits := if text.head? = some '+' then text.drop 1 else text
  if digits.isEmpty then none
  else digits.foldlM (fun value digit =>
    let lower := digit.toLower
    let weight :=
      if lower.isDigit then some (lower.toNat - '0'.toNat)
      else if 'a' ≤ lower ∧ lower ≤ 'f' then some (lower.toNat - 'a'.toNat + 10)
      else none
    weight.bind fun weight => if weight < base then some (base * value + weight) else none) 0

/-- The whole number that a plain scalar writes: in base ten without needless zeros, or in another
base behind its mark. -/
def yamlWhole (text : List Char) : Option Nat :=
  let unsigned := if text.head? = some '+' then text.drop 1 else text
  let based (base : Nat) (rest : List Char) : Option Nat :=
    if rest.head? = some '+' then none else wholeOfBase base rest
  match unsigned with
  | '0' :: 'x' :: rest => based 16 rest
  | '0' :: 'o' :: rest => based 8 rest
  | '0' :: 'b' :: rest => based 2 rest
  | '+' :: _ => none
  | '0' :: _ :: _ => none
  | unsigned => wholeOfBase 10 unsigned

/-- How YAML values are read as settings. A missing value is an empty list. -/
def yamlFormat : ValueFormat Yaml.Value where
  optionalText
    | .scalar plain text => some (if plain && yamlNulls.contains text then none else some text)
    | _ => none
  texts
    | .list items => items.mapM yamlText
    | .scalar true "" => some []
    | _ => none
  whole
    | .scalar true text => yamlWhole text.toList
    | _ => none

/-- The settings that a YAML text makes. Only scalars name settings. -/
def ofYaml (text : String) : Option Settings :=
  match Yaml.read text with
  | some (.map fields) => do
      let fields ← fields.mapM fun (key, value) => (yamlText key).map fun name => (name, value)
      ofFields yamlFormat fields
  | some (.scalar true "") => some {}
  | _ => none

end TopicLint.Settings
