import TopicLint.Text.Blank
import TopicLint.Text.Order

/-! Paths. A path is a text; its meaning is the list of its steps. Repeated slashes, a slash at the
end and the name `.` behind the start add no step, so several texts can mean one path. The operations
keep the spelling of what they do not remove. -/

namespace TopicLint.Path

inductive Step where
  | root
  /-- The directory the path starts in, where the path says so. -/
  | here
  | up
  | named (name : List Char)
  deriving DecidableEq, Repr

/-- A path cut into its start and what stands between the slashes behind it. -/
structure Layout where
  head : Option Step
  body : List (List Char)
  deriving DecidableEq, Repr

/-- Whether a character separates the names of a path. -/
def isSlash (c : Char) : Bool := c = '/'

/-- Cuts a path. The name `.` is a start if nothing or a slash stands behind it. -/
def layout : List Char → Layout
  | '/' :: rest => ⟨some .root, Text.pieces isSlash rest⟩
  | ['.'] => ⟨some .here, [[]]⟩
  | '.' :: '/' :: rest => ⟨some .here, Text.pieces isSlash ('/' :: rest)⟩
  | text => ⟨none, Text.pieces isSlash text⟩

def isIdle (piece : List Char) : Bool := piece == [] || piece == ['.']

def Step.ofPiece (piece : List Char) : Step := if piece = ['.', '.'] then .up else .named piece

def steps (path : String) : List Step :=
  let layout := layout path.toList
  layout.head.toList ++ (layout.body.filter (! isIdle ·)).map Step.ofPiece

def same (path other : String) : Bool := steps path == steps other

def Step.start : Step → List Char
  | .root => ['/']
  | .here => ['.']
  | _ => []

def Layout.written (layout : Layout) : String :=
  String.ofList ((layout.head.map Step.start).getD [] ++ List.intercalate ['/'] layout.body)

/-- The pieces without those at the end that add no step. -/
def trimEnd (pieces : List (List Char)) : List (List Char) :=
  (pieces.reverse.dropWhile isIdle).reverse

/-- The directory that a path names something in, or `none` for a path without a last step. -/
def parent (path : String) : Option String :=
  let layout := layout path.toList
  match layout.head, trimEnd layout.body with
  | some .here, [] => some ""
  | _, [] => none
  | head, body => some (Layout.written ⟨head, trimEnd body.dropLast⟩)

def fileName (path : String) : Option String :=
  match (steps path).getLast? with
  | some (.named name) => some (String.ofList name)
  | _ => none

/-- What stands behind the last dot of the file name, if something stands before it. -/
def extension (path : String) : Option String := do
  let name ← fileName path
  let tail := name.toList.reverse.takeWhile (· ≠ '.')
  if tail.length + 1 < name.length then some (String.ofList tail.reverse) else none

def isAbsolute (path : String) : Bool := path.toList.head? == some '/'

/-- The path of `path` seen from `base`. An absolute path stays what it is, and the empty path
leaves a slash behind the base. -/
def join (base path : String) : String :=
  if isAbsolute path then path
  else if base.isEmpty || base.toList.getLast? == some '/' then base ++ path
  else base ++ "/" ++ path

/-- Drops pieces up to and with the first `count` of them that add a step. -/
def dropSteps : Nat → List (List Char) → List (List Char)
  | 0, pieces => pieces
  | _, [] => []
  | count + 1, piece :: rest => dropSteps (if isIdle piece then count + 1 else count) rest

/-- The path as it is seen from `base`, if its steps start with those of `base`. -/
def below (base path : String) : Option String :=
  let layout := layout path.toList
  let start := steps base
  if start.isPrefixOf (steps path) then
    some <| if start.isEmpty then Layout.written ⟨layout.head, trimEnd layout.body⟩
      else
        let count := if layout.head.isSome then start.length - 1 else start.length
        Layout.written ⟨none, trimEnd ((dropSteps count layout.body).dropWhile isIdle)⟩
  else none

def shown (base path : String) : String := (below base path).getD path

/-- Whether a step is not behind another one: the root, the start, the directory above, names. -/
def Step.atMost : Step → Step → Bool
  | .root, _ => true
  | .here, .root => false
  | .here, _ => true
  | .up, .up | .up, .named _ => true
  | .up, _ => false
  | .named a, .named b => Text.precedes a b
  | .named _, _ => false

/-- Whether a list of steps is not behind another one. -/
def stepsAtMost : List Step → List Step → Bool
  | [], _ => true
  | _ :: _, [] => false
  | a :: s, b :: t => if a = b then stepsAtMost s t else a.atMost b

def atMost (path other : String) : Bool := stepsAtMost (steps path) (steps other)

end TopicLint.Path
