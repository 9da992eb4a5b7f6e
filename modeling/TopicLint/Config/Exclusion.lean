import TopicLint.Text.Places
import TopicLint.Text.Search

/-! Patterns of the files that a configuration excludes.

A pattern is matched against a whole path, byte by byte: `?` is one byte, `*` any number of them,
slashes included. Two stars between slashes stand for any number of whole names, a class `[a-z]` for
one of its bytes, and `{a,b}` for one of its branches. -/

namespace TopicLint.Exclusion

open Text (Places)

inductive Part where
  | literal (c : Char)
  | any
  | star
  /-- Any number of directories at the start of a pattern or a branch, written as two stars and a
  slash. -/
  | leading
  /-- Everything in a directory, written as a slash and two stars at the end. -/
  | trailing
  /-- A slash, with any number of directories behind it, written as two stars between slashes. -/
  | between
  /-- One byte inside or outside of some ranges. -/
  | oneOf (negated : Bool) (ranges : List (Char × Char))
  | choice (branches : List (List Part))

/-! Reading patterns. -/

/-- A group of branches that is still open. -/
structure Group where
  /-- The parts in front of the group, last one first. -/
  before : List Part
  branches : List (List Part)

structure Draft where
  /-- The parts of the current branch, last one first. -/
  parts : List Part
  groups : List Group

namespace Draft

def blank : Draft := ⟨[], []⟩

def push (draft : Draft) (part : Part) : Draft := { draft with parts := part :: draft.parts }

def openGroup (draft : Draft) : Draft := ⟨[], ⟨draft.parts, []⟩ :: draft.groups⟩

/-- Starts the next branch. A comma outside of groups is a literal one. -/
def comma (draft : Draft) : Draft :=
  match draft.groups with
  | [] => draft.push (.literal ',')
  | group :: rest => ⟨[], ⟨group.before, draft.parts.reverse :: group.branches⟩ :: rest⟩

def closeGroup (draft : Draft) : Option Draft :=
  match draft.groups with
  | [] => none
  | group :: rest =>
      some ⟨.choice (draft.parts.reverse :: group.branches).reverse :: group.before, rest⟩

def finish (draft : Draft) : Option (List Part) :=
  if draft.groups.isEmpty then some draft.parts.reverse else none

/-- Puts a part in the place of the slash before it. Two stars behind two stars say nothing new. -/
def replaceSlash (draft : Draft) (part : Part) : Draft :=
  match draft.parts with
  | .leading :: _ | .trailing :: _ => draft
  | parts => { draft with parts := part :: parts.drop 1 }

/-- Whether two stars at this place can stand for whole names: behind a slash, or behind an escaped
mark inside a group. -/
def startsName (draft : Draft) (previous : Option Char) : Bool :=
  previous == some '/' ||
    (! draft.groups.isEmpty && (previous == some ',' || previous == some '{'))

/-- Reads two stars with `rest` behind them. The answer holds the character before what is left,
and what is left. -/
def stars (draft : Draft) (previous : Option Char) (rest : List Char) :
    Draft × Option Char × List Char :=
  let plain := ((draft.push .star).push .star, some '*', rest)
  if draft.parts.isEmpty then
    match rest with
    | [] => (draft.push .leading, some '*', [])
    | '/' :: rest => (draft.push .leading, some '/', rest)
    | _ => plain
  else if draft.startsName previous then
    match rest with
    | [] => (draft.replaceSlash .trailing, some '*', [])
    | '/' :: rest => (draft.replaceSlash .between, some '/', rest)
    | c :: _ =>
        if (c = ',' || c = '}') && ! draft.groups.isEmpty then
          (draft.replaceSlash .trailing, some '*', rest)
        else plain
  else plain

theorem stars_length (draft : Draft) (previous : Option Char) (rest : List Char) :
    (draft.stars previous rest).2.2.length ≤ rest.length := by
  unfold stars
  grind

end Draft

/-- The ranges of a class. A hyphen joins the range before it to the character behind it; at the
end it is itself. The ends of a range must be in order. -/
def ranges (last : Char × Char) : List Char → Option (List (Char × Char))
  | [] => some [last]
  | ['-'] => some [last, ('-', '-')]
  | '-' :: c :: rest => if c.toNat < last.1.toNat then none else ranges (last.1, c) rest
  | c :: rest => (ranges (c, c) rest).map (last :: ·)

/-- Reads the ranges of a class up to its bracket. The first character of a class is always one of
its members. -/
def cutRanges (negated : Bool) : List Char → Option (Part × List Char)
  | [] => none
  | first :: rest =>
      match rest.dropWhile (· ≠ ']') with
      | [] => none
      | _ :: behind =>
          (ranges (first, first) (rest.takeWhile (· ≠ ']'))).map fun spans =>
            (.oneOf negated spans, behind)

def cutClass : List Char → Option (Part × List Char)
  | '!' :: rest | '^' :: rest => cutRanges true rest
  | rest => cutRanges false rest

theorem cutRanges_length {negated : Bool} {cs behind : List Char} {part : Part}
    (h : cutRanges negated cs = some (part, behind)) : behind.length < cs.length := by
  cases cs with
  | nil => cases h
  | cons first rest =>
    rw [cutRanges] at h
    split at h
    next => cases h
    next stops =>
      obtain ⟨spans, -, same⟩ := Option.map_eq_some_iff.1 h
      cases same
      exact Nat.lt_succ_of_lt (Text.length_lt_of_dropWhile stops)

theorem cutClass_length {cs behind : List Char} {part : Part}
    (h : cutClass cs = some (part, behind)) : behind.length < cs.length := by
  unfold cutClass at h
  split at h
  · have := cutRanges_length h; grind
  · have := cutRanges_length h; grind
  · exact cutRanges_length h

/-- Reads the rest of a pattern behind the character `previous`. -/
def readFrom (draft : Draft) (previous : Option Char) : List Char → Option (List Part)
  | [] => draft.finish
  | '?' :: rest => readFrom (draft.push .any) (some '?') rest
  | '*' :: '*' :: rest =>
      have := draft.stars_length previous rest
      let next := draft.stars previous rest
      readFrom next.1 next.2.1 next.2.2
  | '*' :: rest => readFrom (draft.push .star) (some '*') rest
  | '[' :: rest =>
      match h : cutClass rest with
      | none => none
      | some (part, behind) =>
          have := cutClass_length h
          readFrom (draft.push part) (some ']') behind
  | '{' :: rest => readFrom draft.openGroup (some '{') rest
  | '}' :: rest =>
      match draft.closeGroup with
      | none => none
      | some draft => readFrom draft (some '}') rest
  | ',' :: rest => readFrom draft.comma (some ',') rest
  | ['\\'] => none
  | '\\' :: c :: rest => readFrom (draft.push (.literal c)) (some c) rest
  | c :: rest => readFrom (draft.push (.literal c)) (some c) rest
  termination_by cs => cs.length
  decreasing_by all_goals grind

/-- The parts of a pattern, or `none` if it is not one. -/
def read (pattern : String) : Option (List Part) := readFrom .blank none pattern.toList

/-! Matching. -/

def slash : UInt8 := 0x2F

def overSlash (path : List UInt8) (places : Places) : Places :=
  places.step (· == slash) path

/-- Whether a part cannot match any byte since all its branches are without parts. -/
def Part.isVacant : Part → Bool
  | .choice branches => vacant branches
  | _ => false
where
  vacant : List (List Part) → Bool
    | [] => true
    | branch :: rest => vacantBranch branch && vacant rest
  vacantBranch : List Part → Bool
    | [] => true
    | part :: rest => part.isVacant && vacantBranch rest

/-- The ranges of bytes of a range of characters. Characters of several bytes are members byte by
byte; the range joins the last byte of its first character to the first byte of its last one. -/
def byteRanges (range : Char × Char) : List (UInt8 × UInt8) :=
  let single := fun byte => (byte, byte)
  let first := String.utf8EncodeChar range.1
  let last := String.utf8EncodeChar range.2
  if range.1 = range.2 then first.map single
  else (first.dropLast.map single) ++ [(first.getLastD 0, last.headD 0)] ++ (last.drop 1).map single

/-- Whether a byte is in one of some ranges of characters. -/
def inRanges (ranges : List (Char × Char)) (byte : UInt8) : Bool :=
  (ranges.flatMap byteRanges).any fun (low, high) => decide (low ≤ byte) && decide (byte ≤ high)

mutual

/-- The places behind a part, from the places before it. -/
def Part.follow (path : List UInt8) (places : Places) : Part → Places
  | .literal c =>
      (String.utf8EncodeChar c).foldl (fun places byte => places.step (· == byte) path) places
  | .any => places.step (fun _ => true) path
  | .star => places.spread false
  | .leading =>
      places.union ((overSlash path places).union (overSlash path (places.spread false)))
  | .trailing => (overSlash path places).spread false
  | .between =>
      let inside := overSlash path places
      inside.union (overSlash path (inside.spread false))
  | .oneOf negated ranges => places.step (fun byte => inRanges ranges byte != negated) path
  | .choice branches =>
      if Part.isVacant.vacant branches then places else followAny path places branches

def followAll (path : List UInt8) (places : Places) : List Part → Places
  | [] => places
  | part :: rest => followAll path (part.follow path places) rest

/-- The places behind one of some branches. A branch that cannot match any byte is not one. -/
def followAny (path : List UInt8) (places : Places) : List (List Part) → Places
  | [] => places.none
  | branch :: rest =>
      if Part.isVacant.vacantBranch branch then followAny path places rest
      else (followAll path places branch).union (followAny path places rest)

end

def literalText? : List Part → Option (List Char)
  | [] => some []
  | .literal c :: rest => (literalText? rest).map (c :: ·)
  | _ => none

/-- Whether a pattern that ends in a dot is compared with whole paths. This is so for literal text,
for a star and literal text that is more than the dot, and for literal text of several names behind
any number of directories. All other patterns that end in a dot ask for a file name. -/
def seesWholePath (parts : List Part) : Bool :=
  match parts with
  | .leading :: .star :: rest | .star :: rest =>
      (literalText? rest).any fun text => text != ['.']
  | .leading :: rest => (literalText? rest).any fun text => text.contains '/'
  | rest => (literalText? rest).isSome

def endsInDot (parts : List Part) : Bool :=
  match parts.getLast? with
  | some (.literal c) => c = '.'
  | _ => false

/-- Whether a pattern cannot match a path since the path ends in a dot: such a path has no file
name. -/
def lacksName (parts : List Part) (path : String) : Bool :=
  path.toList.getLast? == some '.' && endsInDot parts && ! seesWholePath parts

/-- Whether a pattern matches a path. Two stars alone match every path. -/
def isMatch (parts : List Part) (path : String) : Bool :=
  match parts with
  | [.leading] => true
  | _ =>
      let bytes := path.toUTF8.toList
      ! lacksName parts path && (followAll bytes (Places.start bytes) parts).atEnd

end TopicLint.Exclusion
