import TopicLint.Text.Decimal

/-! What a configuration file says, before it is checked. The formats of configuration files differ
in what their values can be read as; how settings are collected from named values is the same for
all of them. -/

namespace TopicLint

/-- The settings of a configuration file. -/
structure Settings where
  rules : Option String := none
  ignore : List String := []
  /-- The word for the least severity to report. -/
  minSeverity : Option String := none
  exclude : List String := []
  /-- The directories of the project to look into. -/
  scanDirs : List String := []
  language : Option String := none
  jobs : Nat := 0
  deriving DecidableEq, Repr

/-- What the values of a format can be read as. -/
structure ValueFormat (V : Type) where
  /-- A text, or nothing where the value says so. -/
  optionalText : V → Option (Option String)
  texts : V → Option (List String)
  whole : V → Option Nat

namespace Settings

def names : List String :=
  ["rules", "ignore", "minSeverity", "exclude", "scanDirs", "language", "jobs"]

variable {V : Type} (format : ValueFormat V)

/-- Changes the setting of a name. Other names mean nothing. -/
def set (settings : Settings) (name : String) (value : V) : Option Settings :=
  match name with
  | "rules" => (format.optionalText value).map fun rules => { settings with rules }
  | "ignore" => (format.texts value).map fun ignore => { settings with ignore }
  | "minSeverity" =>
      (format.optionalText value).map fun minSeverity => { settings with minSeverity }
  | "exclude" => (format.texts value).map fun exclude => { settings with exclude }
  | "scanDirs" => (format.texts value).map fun scanDirs => { settings with scanDirs }
  | "language" => (format.optionalText value).map fun language => { settings with language }
  | "jobs" => (format.whole value).bind fun jobs =>
      if jobs < Text.wordLimit then some { settings with jobs } else none
  | _ => some settings

/-- Whether the name of a setting stands twice in a list. -/
def repeats (given : List String) : Bool := names.any fun name => decide (1 < given.count name)

/-- The settings that named values make. No setting may be named twice. -/
def ofFields (fields : List (String × V)) : Option Settings :=
  if repeats (fields.map (·.1)) then none
  else fields.foldlM (fun settings (name, value) => settings.set format name value) {}

/-- The settings that values in the order of the settings make. -/
def ofItems (items : List V) : Option Settings :=
  if names.length < items.length then none else ofFields format (names.zip items)

end Settings

end TopicLint
