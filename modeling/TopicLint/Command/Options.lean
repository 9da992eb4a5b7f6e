import TopicLint.Text.Decimal
import TopicLint.Text.Search

/-! The command line: which options there are, and how arguments are read. Arguments are read from
left to right, and the first one that is wrong, or that asks for help or the version, ends the
reading. -/

namespace TopicLint.Command

inductive Format where
  | text
  | json
  deriving DecidableEq, Repr

/-- What a command line asks for. -/
structure Options where
  /-- The project file, or the directory it is in. -/
  project : Option String := none
  rules : Option String := none
  config : Option String := none
  format : Option Format := none
  jobs : Option Nat := none
  ignore : List String := []
  /-- The language to use in place of the project's own. -/
  language : Option String := none
  quiet : Bool := false
  /-- Whether the rules are shown in place of a report. -/
  listRules : Bool := false
  verbose : Bool := false
  noColour : Bool := false
  deriving DecidableEq, Repr

inductive Switch where
  | quiet
  | listRules
  | verbose
  | noColour
  | help
  | version
  deriving DecidableEq, Repr

inductive Setting where
  | rules
  | config
  | format
  | jobs
  | ignore
  | language
  deriving DecidableEq, Repr

inductive Choice where
  | switch (switch : Switch)
  | setting (setting : Setting)
  deriving DecidableEq, Repr

def longNames : List (String × Choice) := [
  ("rules", .setting .rules), ("config", .setting .config), ("format", .setting .format),
  ("jobs", .setting .jobs), ("ignore", .setting .ignore), ("language", .setting .language),
  ("quiet", .switch .quiet), ("list-rules", .switch .listRules), ("verbose", .switch .verbose),
  ("no-color", .switch .noColour), ("help", .switch .help), ("version", .switch .version)]

def shortNames : List (Char × Choice) := [
  ('r', .setting .rules), ('c', .setting .config), ('f', .setting .format),
  ('j', .setting .jobs), ('i', .setting .ignore), ('l', .setting .language),
  ('q', .switch .quiet), ('v', .switch .verbose), ('h', .switch .help), ('V', .switch .version)]

/-- Why the reading of a command line ends early. -/
inductive Stop where
  | wrong
  | help
  | version
  deriving DecidableEq, Repr

def readJobs (text : String) : Option Nat :=
  match text.toList with
  | '+' :: digits => Text.word? digits
  | digits => Text.word? digits

def readFormat : String → Option Format
  | "text" => some .text
  | "json" => some .json
  | _ => none

def fresh {α : Type} (known : Option α) (value : Option α) : Except Stop (Option α) :=
  match known, value with
  | none, some value => .ok (some value)
  | _, _ => .error .wrong

def turnOn (known : Bool) : Except Stop Bool := if known then .error .wrong else .ok true

def readPath (text : String) : Option String := if text.isEmpty then none else some text

namespace Options

def flip (options : Options) : Switch → Except Stop Options
  | .quiet => do return { options with quiet := ← turnOn options.quiet }
  | .listRules => do return { options with listRules := ← turnOn options.listRules }
  | .verbose => do return { options with verbose := ← turnOn options.verbose }
  | .noColour => do return { options with noColour := ← turnOn options.noColour }
  | .help => .error .help
  | .version => .error .version

/-- Gives an option a value. Only rule files to leave out can be given more than once. -/
def assign (options : Options) (text : String) : Setting → Except Stop Options
  | .rules => do return { options with rules := ← fresh options.rules (readPath text) }
  | .config => do return { options with config := ← fresh options.config (readPath text) }
  | .format => do return { options with format := ← fresh options.format (readFormat text) }
  | .jobs => do return { options with jobs := ← fresh options.jobs (readJobs text) }
  | .ignore => .ok { options with ignore := options.ignore ++ [text] }
  | .language => do return { options with language := ← fresh options.language (some text) }

def place (options : Options) (text : String) : Except Stop Options := do
  return { options with project := ← fresh options.project (readPath text) }

end Options

/-- Whether an argument is an option and not a value. -/
def isOption (argument : String) : Bool :=
  match argument.toList with
  | '-' :: _ :: _ => true
  | _ => false

/-- Reads the letters of short options. The first one with a value takes the rest of the letters as
its value, or else is the one that the next argument is for. -/
def readLetters (options : Options) : List Char → Except Stop (Options × Option Setting)
  | [] => .ok (options, none)
  | letter :: rest =>
      match shortNames.lookup letter with
      | some (.switch switch) => do readLetters (← options.flip switch) rest
      | some (.setting setting) =>
          match rest with
          | [] => .ok (options, some setting)
          | '=' :: value => do
              return (← options.assign (String.ofList value) setting, none)
          | value => do return (← options.assign (String.ofList value) setting, none)
      | none => .error .wrong

def readLong (options : Options) (text : String) : Except Stop (Options × Option Setting) :=
  let (name, value) :=
    match Text.cutFirst? '=' text with
    | some (name, value) => (name, some value)
    | none => (text, none)
  match longNames.lookup name, value with
  | some (.switch switch), none => do return (← options.flip switch, none)
  | some (.setting setting), some value => do return (← options.assign value setting, none)
  | some (.setting setting), none => .ok (options, some setting)
  | _, _ => .error .wrong

/-- Reads one argument. `waiting` is the option that it is the value of. -/
def readArgument (options : Options) (waiting : Option Setting) (argument : String) :
    Except Stop (Options × Option Setting) :=
  match waiting with
  | some setting =>
      if isOption argument then .error .wrong
      else do return (← options.assign argument setting, none)
  | none =>
      match argument.toList with
      | '-' :: '-' :: name => readLong options (String.ofList name)
      | '-' :: letter :: letters => readLetters options (letter :: letters)
      | _ => do return (← options.place argument, none)

/-- Reads arguments. Behind two hyphens there are no more options. -/
def readArguments (options : Options) (waiting : Option Setting) :
    List String → Except Stop Options
  | [] => if waiting.isSome then .error .wrong else .ok options
  | argument :: rest =>
      if argument = "--" then
        if waiting.isSome then .error .wrong else rest.foldlM Options.place options
      else do
        let (options, waiting) ← readArgument options waiting argument
        readArguments options waiting rest

/-- The variable that names the directory of the rule files where no option does. -/
def rulesVariable : String := "FLARELINT_RULES"

/-- Takes the directory of the rule files from the environment if no option gives it. -/
def withEnvironment (options : Options) (env : String → Option String) : Except Stop Options :=
  match options.rules, env rulesVariable with
  | none, some text => do return { options with rules := ← fresh none (readPath text) }
  | _, _ => .ok options

/-- The options that arguments and the environment make. -/
def readOptions (env : String → Option String) (arguments : List String) : Except Stop Options := do
  withEnvironment (← readArguments {} none arguments) env

end TopicLint.Command
