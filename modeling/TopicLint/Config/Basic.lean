import TopicLint.Config.Exclusion
import TopicLint.Config.Settings
import TopicLint.Severity

/-! Configurations: checked settings, and what they say about rules, files and findings. -/

namespace TopicLint

/-- What a run is told about rules, files and findings. -/
structure Config where
  rulesDir : Option String
  /-- The names of the rule files to leave out. -/
  disabledRules : List String
  minSeverity : Severity
  /-- The patterns of files to leave out, matched against paths seen from the project. -/
  excludes : List (List Exclusion.Part)
  /-- The directories of the project to look into. -/
  scanDirs : List String
  /-- The language to use in place of the project's own. -/
  language : Option String
  /-- The number of workers, or 0 for as many as there are processors. The report does not depend
  on it. -/
  jobs : Nat

/-- Why a configuration file cannot be used. -/
inductive ConfigError where
  | unreadable
  | badJson
  | badYaml
  | badPattern (pattern : String)
  | badSeverity (word : String)
  deriving DecidableEq, Repr

namespace Config

/-- The directories to look into where none are given. -/
def standardScanDirs : List String := ["Content", "Project"]

def standard : Config where
  rulesDir := none
  disabledRules := []
  minSeverity := .warning
  excludes := []
  scanDirs := standardScanDirs
  language := none
  jobs := 0

/-- Reads the patterns of excluded files; the first one that is not a pattern is the error. -/
def readPatterns (patterns : List String) : Except ConfigError (List (List Exclusion.Part)) :=
  patterns.mapM fun pattern =>
    match Exclusion.read pattern with
    | some parts => .ok parts
    | none => .error (.badPattern pattern)

def readSeverity : Option String → Except ConfigError Severity
  | none => .ok .warning
  | some word =>
      match Severity.ofName? word with
      | some severity => .ok severity
      | none => .error (.badSeverity word)

/-- The configuration that settings make. Patterns are checked before the severity, and no
directories to look into means the standard ones. -/
def ofSettings (settings : Settings) : Except ConfigError Config := do
  let excludes ← readPatterns settings.exclude
  let minSeverity ← readSeverity settings.minSeverity
  return {
    rulesDir := settings.rules
    disabledRules := settings.ignore
    minSeverity
    excludes
    scanDirs := if settings.scanDirs.isEmpty then standardScanDirs else settings.scanDirs
    language := settings.language
    jobs := settings.jobs }

/-- What a command line says besides the configuration. -/
structure Overrides where
  rulesDir : Option String := none
  disabledRules : List String := []
  minSeverity : Option Severity := none
  language : Option String := none
  jobs : Option Nat := none

/-- The configuration with what the command line says put in its place. Only the rules to leave out
add up. -/
def override (config : Config) (given : Overrides) : Config :=
  { config with
    rulesDir := given.rulesDir.or config.rulesDir
    disabledRules := config.disabledRules ++ given.disabledRules
    minSeverity := given.minSeverity.getD config.minSeverity
    language := given.language.or config.language
    jobs := given.jobs.getD config.jobs }

def enables (config : Config) (source : String) : Bool := ! config.disabledRules.contains source

def excludesFile (config : Config) (path : String) : Bool :=
  config.excludes.any fun parts => Exclusion.isMatch parts path

def reports (config : Config) (severity : Severity) : Bool := severity.atLeast config.minSeverity

end Config

/-- What is said about a configuration file that cannot be used. -/
def ConfigError.message : ConfigError → String
  | unreadable => "Failed to read config file"
  | badJson => "Failed to parse JSON config"
  | badYaml => "Failed to parse YAML config"
  | badPattern pattern => "Invalid glob pattern: " ++ pattern
  | badSeverity word => "Invalid severity '" ++ word ++ "', expected 'error' or 'warning'"

end TopicLint
