import TopicLint.Command.Options
import TopicLint.Config.File
import TopicLint.Project
import TopicLint.Report.Export
import TopicLint.Report.Listing
import TopicLint.Rule.Directory

/-! A run of the program: from the arguments, the environment and the files to what is printed and
the exit code. -/

namespace TopicLint.Command

structure Surroundings where
  disk : Disk
  env : String → Option String
  terminal : Bool

structure Outcome where
  code : Nat
  output : String
  complaint : String
  deriving DecidableEq, Repr

/-- The exit code of a run that could not do what it was asked for. -/
def failureCode : Nat := 2

def versionText : String := "flare-lint 0.1.0\n"

def helpText : String :=
  "Usage: flare-lint [OPTIONS] [PROJECT]\n\n"
    ++ "  PROJECT                a project file, or the directory it is in\n"
    ++ "  -r, --rules DIR        the directory of the rule files\n"
    ++ "  -c, --config FILE      the configuration file\n"
    ++ "  -f, --format FORMAT    text or json\n"
    ++ "  -j, --jobs N           the number of workers\n"
    ++ "  -i, --ignore RULE      leave a rule file out\n"
    ++ "  -l, --language TAG     the language to use in place of the project's own\n"
    ++ "  -q, --quiet            report errors only\n"
    ++ "      --list-rules       show the rules\n"
    ++ "  -v, --verbose          say more about what happens\n"
    ++ "      --no-color         no colours\n"
    ++ "  -h, --help             show this text\n"
    ++ "  -V, --version          show the version\n"

/-- Whether a variable of the environment is there, and whether it is not `0`. -/
def flag (env : String → Option String) (name : String) : Option Bool :=
  (env name).map fun value => value != "0"

/-- Whether the output has colours. Forcing them comes before forbidding them in the environment,
and an option to forbid them before both. -/
def colours (around : Surroundings) (options : Options) : Bool :=
  if options.noColour then false
  else if flag around.env "CLICOLOR_FORCE" = some true then true
  else if (flag around.env "NO_COLOR").isSome then false
  else (flag around.env "CLICOLOR").getD true && around.terminal

def workingDirectory (disk : Disk) : String := "/" ++ "/".intercalate disk.workingDirectory

/-- The path of the project: the working directory if none is given. -/
def projectPath (around : Surroundings) (options : Options) : String :=
  options.project.getD (workingDirectory around.disk)

/-- The directory that the search for a configuration starts in. -/
def startDirectory (around : Surroundings) (options : Options) : String :=
  let path := projectPath around options
  if around.disk.isDirectory path then path else (Path.parent path).getD ""

/-- The configuration before the command line changes it. One that is looked for and cannot be used
is as good as none. -/
def baseConfig (around : Surroundings) (options : Options) : Except String Config :=
  match options.config with
  | some path =>
      match Config.ofFile around.disk path with
      | .ok config => .ok config
      | .error error => .error ("Failed to load config " ++ path ++ ": " ++ error.message)
  | none =>
      match Config.find around.disk (startDirectory around options) with
      | .ok (some (_, config)) => .ok config
      | _ => .ok Config.standard

/-- What the command line puts in the place of parts of the configuration. -/
def Options.overrides (options : Options) : Config.Overrides where
  rulesDir := options.rules
  disabledRules := options.ignore
  minSeverity := if options.quiet then some .error else none
  language := options.language.map Text.lowercase
  jobs := options.jobs

def configOf (around : Surroundings) (options : Options) : Except String Config :=
  (baseConfig around options).map fun config => config.override options.overrides

/-- The directory for the configurations of a user. It is given by its variable if that is an
absolute path, and is a directory of the home directory otherwise. -/
def userDirectory (env : String → Option String) : Option String :=
  match (env "XDG_CONFIG_HOME").filter Path.isAbsolute with
  | some path => some path
  | none =>
      ((env "HOME").filter fun home => ! home.isEmpty).map fun home => Path.join home ".config"

def rulesDirectory (around : Surroundings) (config : Config) : Except String String :=
  match config.rulesDir, userDirectory around.env with
  | some directory, _ => .ok directory
  | none, some directory => .ok (Path.join directory "flarelint")
  | none, none => .error "No rules directory given and no user config directory found"

def rulesOf (around : Surroundings) (config : Config) : Except String RuleBook := do
  let directory ← rulesDirectory around config
  match RuleDirectory.load around.disk directory with
  | .ok book => return book
  | .error (.faulty error) => throw error.message
  | .error error => throw ("Failed to load rules: " ++ error.message)

/-- The lines of a text. A line feed at the end starts no line. -/
def linesOf (text : String) : List String :=
  let lines := Text.split (· = '\n') text
  if lines.getLast? = some "" then lines.dropLast else lines

def ruleEntry (colour : Bool) (rule : Rule) : String :=
  Ink.paint .bold colour rule.source
    ++ "  " ++ Ink.paint rule.severity.ink colour rule.severity.name
    ++ "  [" ++ ", ".intercalate rule.extensions ++ "]\n"
    ++ String.join ((linesOf (rule.description.getD "")).map fun line =>
      "    " ++ Ink.paint .dimmed colour (Text.trim line) ++ "\n")

/-- The rules of a book, and how many there are for which extensions. -/
def ruleList (colour : Bool) (book : RuleBook) : String :=
  String.join (book.rules.map (ruleEntry colour))
    ++ toString book.rules.length ++ " rules for " ++ ", ".intercalate book.extensions ++ "\n"

def printed (colour : Bool) (base : String) (format : Format) (report : Report) : String :=
  match format with
  | .text => report.listing colour base
  | .json => (report.json base).pretty ++ "\n"

/-- What a run with options prints and its exit code, or why it fails. Rules that cannot be used
come before a project that cannot be opened. -/
def perform (around : Surroundings) (options : Options) : Except String (Nat × String) := do
  let colour := colours around options
  let config ← configOf around options
  let book ← rulesOf around config
  if options.listRules then return (0, ruleList colour book)
  let path := projectPath around options
  match Project.openAt around.disk path with
  | .error error => throw ("Failed to open project " ++ path ++ ": " ++ error.message)
  | .ok project =>
      let report := (Linter.ofBook book config).lintProject around.disk project
      return (report.exitCode,
        printed colour project.directory (options.format.getD .text) report)

def run (around : Surroundings) (arguments : List String) : Outcome :=
  match readOptions around.env arguments with
  | .error .wrong => ⟨failureCode, "", helpText⟩
  | .error .help => ⟨0, helpText, ""⟩
  | .error .version => ⟨0, versionText, ""⟩
  | .ok options =>
      match perform around options with
      | .ok (code, output) => ⟨code, output, ""⟩
      | .error cause =>
          ⟨failureCode, "",
            Ink.paint .boldRed (colours around options) "error" ++ ": " ++ cause ++ "\n"⟩

end TopicLint.Command
