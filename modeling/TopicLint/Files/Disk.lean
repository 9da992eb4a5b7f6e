import TopicLint.Files.Path

/-! Directory trees, and what paths name in them. A directory is written as its first entry and the
rest of its entries, so that functions over trees recurse on their structure. -/

namespace TopicLint

inductive Folder where
  | nil
  | file (name : String) (text : Option String) (rest : Folder)
  | directory (name : String) (inside : Folder) (rest : Folder)
  deriving DecidableEq, Repr

inductive Entry where
  | directory (inside : Folder)
  | file (text : Option String)
  deriving DecidableEq, Repr

namespace Folder

def find? (name : String) : Folder → Option Entry
  | nil => none
  | file known text rest => if known = name then some (.file text) else find? name rest
  | directory known inside rest =>
      if known = name then some (.directory inside) else find? name rest

def names : Folder → List String
  | nil => []
  | file name _ rest => name :: names rest
  | directory name _ rest => name :: names rest

/-- The paths of all files at any depth, for a directory that is at a path. -/
def files (base : String) : Folder → List String
  | nil => []
  | file name _ rest => Path.join base name :: files base rest
  | directory name inside rest => files (Path.join base name) inside ++ files base rest

/-- The paths and names of all entries at any depth, for a directory that is at a path. -/
def descendants (base : String) : Folder → List (String × String)
  | nil => []
  | file name _ rest => (Path.join base name, name) :: descendants base rest
  | directory name inside rest =>
      (Path.join base name, name) :: descendants (Path.join base name) inside ++ descendants base rest

/-- Changes what is in the directory of a name, which is made if there is none. -/
def changeIn (name : String) (change : Folder → Folder) : Folder → Folder
  | nil => directory name (change nil) nil
  | file known text rest => file known text (changeIn name change rest)
  | directory known inside rest =>
      if known = name then directory known (change inside) rest
      else directory known inside (changeIn name change rest)

/-- Gives the file of a name a text. It is made if there is none. -/
def setFile (name : String) (text : Option String) : Folder → Folder
  | nil => file name text nil
  | file known old rest =>
      if known = name then file name text rest else file known old (setFile name text rest)
  | directory known inside rest => directory known inside (setFile name text rest)

/-- Puts an entry at the end of a chain of names, with the directories on the way. A directory that
is there already stays as it is. -/
def put (entry : Entry) : List String → Folder → Folder
  | [], folder => folder
  | [name], folder =>
      match entry with
      | .file text => setFile name text folder
      | .directory inside => if (find? name folder).isSome then folder
          else changeIn name (fun _ => inside) folder
  | name :: rest, folder => changeIn name (put entry rest) folder

end Folder

/-- A tree of directories and the names that lead from its root to the working directory. -/
structure Disk where
  root : Folder
  workingDirectory : List String
  deriving DecidableEq, Repr

namespace Disk

/-- Follows steps from a directory. `above` holds the directories above it, nearest first; above the
root is the root. Nothing is below a file. -/
def follow (above : List Folder) (folder : Folder) : List Path.Step → Option Entry
  | [] => some (.directory folder)
  | .up :: rest =>
      match above with
      | [] => follow [] folder rest
      | parent :: above => follow above parent rest
  | .named name :: rest =>
      match folder.find? (String.ofList name) with
      | some (.directory inside) => follow (folder :: above) inside rest
      | some (.file text) => if rest.isEmpty then some (.file text) else none
      | none => none
  | .root :: rest | .here :: rest => follow above folder rest

/-- Whether a path ends in a slash or the name `.`, so that it can only name a directory. -/
def asksDirectory (path : String) : Bool :=
  (Path.layout path.toList).body.getLast?.any Path.isIdle

def look (disk : Disk) (path : String) : Option Entry :=
  if path.isEmpty then none
  else
    let start := if Path.isAbsolute path then [] else
      disk.workingDirectory.map fun name => Path.Step.named name.toList
    match follow [] disk.root (start ++ Path.steps path) with
    | some (.file text) => if asksDirectory path then none else some (.file text)
    | entry => entry

def holds (disk : Disk) (path : String) : Bool := (disk.look path).isSome

def folder? (disk : Disk) (path : String) : Option Folder :=
  match disk.look path with
  | some (.directory inside) => some inside
  | _ => none

def isDirectory (disk : Disk) (path : String) : Bool := (disk.folder? path).isSome

def isFile (disk : Disk) (path : String) : Bool :=
  match disk.look path with
  | some (.file _) => true
  | _ => false

def read (disk : Disk) (path : String) : Option String :=
  match disk.look path with
  | some (.file text) => text
  | _ => none

/-- The paths of all files in a directory, at any depth. -/
def filesIn (disk : Disk) (path : String) : List String :=
  match disk.folder? path with
  | some inside => inside.files path
  | none => []

/-- The locations that steps pass from a location, each as the names from the root to it. -/
def passed (location : List String) : List Path.Step → List (List String)
  | [] => [location]
  | .up :: rest => location :: passed location.dropLast rest
  | .named name :: rest => location :: passed (location ++ [String.ofList name]) rest
  | .root :: rest => location :: passed [] rest
  | .here :: rest => location :: passed location rest

/-- The locations that a path passes, last of all the one it leads to. -/
def trail (disk : Disk) (path : String) : List (List String) :=
  passed (if Path.isAbsolute path then [] else disk.workingDirectory) (Path.steps path)

end Disk

end TopicLint
