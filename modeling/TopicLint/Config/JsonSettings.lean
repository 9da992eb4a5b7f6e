import TopicLint.Config.Settings
import TopicLint.Json.Read

/-! Settings in JSON: an object with the settings as fields, or a list of their values in order. -/

namespace TopicLint.Settings

def jsonText : Json.Source → Option String
  | .text value => value
  | _ => none

/-- How JSON values are read as settings. Only `null` is no text, and a whole number has neither
sign, fraction nor exponent. -/
def jsonFormat : ValueFormat Json.Source where
  optionalText
    | .null => some none
    | value => (jsonText value).map some
  texts
    | .list items => items.mapM jsonText
    | _ => none
  whole
    | .number literal => Text.word? literal
    | _ => none

/-- The settings that a JSON text makes. A field whose name cannot be used spoils them. -/
def ofJson (text : String) : Option Settings :=
  match Json.read text with
  | some (.object fields) => do
      let fields ← fields.mapM fun (name, value) => name.map fun name => (name, value)
      ofFields jsonFormat fields
  | some (.list items) => ofItems jsonFormat items
  | _ => none

end TopicLint.Settings
