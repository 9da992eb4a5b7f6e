import TopicLint.Files.Search
import TopicLint.Rule.Book
import TopicLint.Rule.Compile

/-! Rule directories: the files in them whose names end in `rule.txt`, one rule in each. The first
file that cannot be used spoils the whole directory. -/

namespace TopicLint

/-- Why the rules of a directory cannot be used. -/
inductive RuleError where
  | noDirectory (directory : String)
  | noRules (directory : String)
  | unreadable (file : String)
  | badPattern
  | faulty (error : Rule.CompileError)

namespace RuleError

def message : RuleError → String
  | noDirectory directory => "Rules directory not found: " ++ directory
  | noRules directory => "No *rule.txt files in " ++ directory
  | unreadable file => "Failed to read rule file " ++ file
  | badPattern => "Invalid rules directory pattern"
  | faulty error => error.message

end RuleError

namespace RuleDirectory

def filePattern : String := "*rule.txt"

/-- The rule files of a directory, in the order of their names. -/
def files (disk : Disk) (directory : String) : Except RuleError (List String) :=
  if disk.isDirectory directory then
    match Search.find disk (Path.join directory filePattern) with
    | some paths => .ok (paths.filter disk.isFile)
    | none => .error .badPattern
  else .error (.noDirectory directory)

def loadFile (disk : Disk) (path : String) : Except RuleError Rule :=
  match disk.read path with
  | none => .error (.unreadable path)
  | some text => (Rule.compile ((Path.fileName path).getD path) text).mapError .faulty

def load (disk : Disk) (directory : String) : Except RuleError RuleBook := do
  let paths ← files disk directory
  if paths.isEmpty then throw (.noRules directory)
  let rules ← paths.mapM (loadFile disk)
  return RuleBook.ofRules rules

end RuleDirectory

end TopicLint
