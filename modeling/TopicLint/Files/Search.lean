import TopicLint.Files.Disk
import TopicLint.Files.Wildcard

/-! Looking for entries by a pattern of paths. Every name of the pattern is a pattern of its own. The
search starts in the root or in the working directory and takes one name after the other. -/

namespace TopicLint.Search

/-- The names of a path pattern, without the root. A slash at the end ends no name. -/
def pieces (pattern : List Char) : List (List Char) :=
  let names := Text.pieces Path.isSlash (if pattern.head? = some '/' then pattern.drop 1 else pattern)
  if names.getLast? = some [] then names.dropLast else names

/-- The path of an entry. In the working directory it is the name alone. -/
def entryPath (path name : String) : String :=
  if Path.same path "." then name else Path.join path name

/-- The path that a name without wildcards leads to, if it leads anywhere. -/
def enter (disk : Disk) (path name : String) : Option String :=
  let next := entryPath path name
  if name = "." ∨ name = ".." then if disk.isDirectory path then some next else none
  else if disk.holds next then some next else none

/-- The entries of a directory that a pattern matches. A pattern that starts with a dot can also
match the directory itself and the one above. -/
def matching (path : String) (inside : Folder) (pattern : List Wildcard.Part) : List String :=
  ((inside.names.filter (Wildcard.isMatch pattern)).map (entryPath path))
    ++ if pattern.head? = some (.char '.') then
        ([".", ".."].filter (Wildcard.isMatch pattern)).map (Path.join path)
      else []

/-- The entries at any depth of a directory that a pattern matches. -/
def matchingBelow (path : String) (inside : Folder) (pattern : List Wildcard.Part) : List String :=
  let entries :=
    if Path.same path "." then inside.descendants "" else inside.descendants path
  (entries.filter fun entry => Wildcard.isMatch pattern entry.2).map (·.1)

/-- What is found below a path by the patterns of the names that are left. -/
def descend (disk : Disk) : List (List Wildcard.Part) → String → List String
  | [], path => [path]
  | [.deep] :: rest, path => descendDeep disk rest path
  | pattern :: rest, path =>
      match Wildcard.literal? pattern with
      | some name =>
          match enter disk path (String.ofList name) with
          | some next => descend disk rest next
          | none => []
      | none =>
          match disk.folder? path with
          | some inside => (matching path inside pattern).flatMap (descend disk rest)
          | none => []
where
  /-- The same behind two stars: the next name can be at any depth. -/
  descendDeep (disk : Disk) : List (List Wildcard.Part) → String → List String
    | [], _ => []
    | [.deep] :: rest, path => descendDeep disk rest path
    | pattern :: rest, path =>
        match disk.folder? path with
        | some inside => (matchingBelow path inside pattern).flatMap (descend disk rest)
        | none => []

/-- The entries whose paths match a pattern, in the order of paths, or `none` if it is not a
pattern. -/
def find (disk : Disk) (pattern : String) : Option (List String) := do
  let text := pattern.toList
  let _ ← Wildcard.read text
  let names ← (pieces text).mapM Wildcard.read
  let start := if Path.isAbsolute pattern then "/" else "."
  return (descend disk names start).mergeSort Path.atMost

end TopicLint.Search
