import TopicLint.Config.Basic
import TopicLint.Files.Search
import TopicLint.Lint
import TopicLint.Text.Lowercase

/-! Projects: a directory with a project file, whose root element says in which language the topics
are, and the files in the directories of the project that are to be looked into. -/

namespace TopicLint

inductive DocumentError where
  | unreadable
  | unparsable
  deriving DecidableEq, Repr

def Document.ofFile (disk : Disk) (path language : String) : Except DocumentError Document :=
  match disk.read path with
  | none => .error .unreadable
  | some text =>
      match Xml.parse text with
      | some tree => .ok (Document.ofTree tree language)
      | none => .error .unparsable

structure Project where
  file : String
  directory : String
  /-- The language of the topics, in lower case. -/
  language : String
  deriving DecidableEq, Repr

/-- Why a project cannot be opened. -/
inductive ProjectError where
  | noFile (directory : String)
  | badFile (file : String) (cause : DocumentError)
  | badPattern
  deriving DecidableEq, Repr

/-- What is said about a project that cannot be opened. -/
def ProjectError.message : ProjectError → String
  | noFile directory => "No .flprj project file found in " ++ directory
  | badFile file _ => "Failed to read project file " ++ file
  | badPattern => "Invalid search pattern"

namespace Project

def filePattern : String := "*.flprj"

def find (disk : Disk) (directory : String) : Except ProjectError String :=
  match Search.find disk (Path.join directory filePattern) with
  | none => .error .badPattern
  | some [] => .error (.noFile directory)
  | some (path :: _) => .ok path

/-- The language that the root element of a project file gives. -/
def languageOf (doc : Document) : String :=
  let given := Text.trim (doc.root.attr doc "xml:lang")
  if given.isEmpty then Document.standardLanguage else Text.lowercase given

/-- Opens the project of a project file, or of the directory it is in. -/
def openAt (disk : Disk) (path : String) : Except ProjectError Project := do
  let file ← if disk.isDirectory path then find disk path else pure path
  match Document.ofFile disk file Document.standardLanguage with
  | .error cause => throw (.badFile file cause)
  | .ok doc => return ⟨file, (Path.parent file).getD "", languageOf doc⟩

/-- The files below a directory of the project that are not excluded. -/
def filesIn (disk : Disk) (config : Config) (project : Project) (scanned : String) : List String :=
  (disk.filesIn (Path.join project.directory scanned)).filter fun path =>
    ! config.excludesFile (Path.shown project.directory path)

/-- The files of a project, in the order of their paths without regard to case. -/
def files (disk : Disk) (config : Config) (project : Project) : List String :=
  (config.scanDirs.flatMap (filesIn disk config project)).mergeSort fun first second =>
    Text.atMost (Text.lowercase first) (Text.lowercase second)

end Project

/-- The report on all files of a project. The language of the configuration comes before that of the
project. -/
def Linter.lintProject (linter : Linter) (disk : Disk) (project : Project) : Report :=
  linter.lintFiles disk.read (linter.config.language.getD project.language)
    (project.files disk linter.config)

end TopicLint
