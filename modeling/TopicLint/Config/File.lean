import TopicLint.Config.Basic
import TopicLint.Config.JsonSettings
import TopicLint.Config.YamlSettings
import TopicLint.Files.Disk

/-! Configuration files: reading one, and looking for the nearest one above a directory. -/

namespace TopicLint.Config

/-- The extensions of configuration files in YAML; all other files are in JSON. -/
def yamlExtensions : List String := ["yaml", "yml"]

def readSettings (path text : String) : Except ConfigError Settings :=
  if (Path.extension path).any yamlExtensions.contains then
    match Settings.ofYaml text with
    | some settings => .ok settings
    | none => .error .badYaml
  else
    match Settings.ofJson text with
    | some settings => .ok settings
    | none => .error .badJson

/-- Settings with the directory of the rules as it is seen from where the file is. -/
def placeRules (path : String) (settings : Settings) : Settings :=
  match Path.parent path with
  | some base => { settings with rules := settings.rules.map (Path.join base) }
  | none => settings

def ofFile (disk : Disk) (path : String) : Except ConfigError Config :=
  match disk.read path with
  | none => .error .unreadable
  | some text => do
      let settings ← readSettings path text
      ofSettings (placeRules path settings)

/-- The names of configuration files that are looked for, in order of preference. -/
def fileNames : List String :=
  [".flarelintrc.json", ".flarelintrc.yaml", ".flarelintrc.yml", "flarelint.json",
    "flarelint.yaml"]

/-- A directory and the ones above it, nearest first, as far as the path reaches. Every parent has
fewer characters than its child. -/
def directoriesAbove (path : String) : List String :=
  match Path.parent path with
  | some parent =>
      if parent.length < path.length then path :: directoriesAbove parent else [path]
  | none => [path]
  termination_by path.length

def fileIn (disk : Disk) (directory : String) : Option String :=
  (fileNames.map (Path.join directory)).find? disk.holds

/-- The nearest configuration file of a directory or one above it. -/
def nearestFile (disk : Disk) (directory : String) : Option String :=
  (directoriesAbove directory).findSome? (fileIn disk)

/-- The nearest configuration file of a directory and what is in it. A file that cannot be used is
an error; no other one is tried in its place. -/
def find (disk : Disk) (directory : String) : Except ConfigError (Option (String × Config)) :=
  match nearestFile disk directory with
  | none => .ok none
  | some path => (ofFile disk path).map fun config => some (path, config)

end TopicLint.Config
