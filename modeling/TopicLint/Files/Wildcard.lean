import TopicLint.Text.Blank
import TopicLint.Text.Places
import TopicLint.Text.Search

/-! Patterns of names in a directory: `?` is one character, `*` any number of them, and a class such
as `[a-z]` or `[!a]` one character inside or outside of it. Two stars as a whole name stand for any
number of directories. -/

namespace TopicLint.Wildcard

inductive Part where
  | char (c : Char)
  | any
  | many
  | deep
  | oneOf (negated : Bool) (ranges : List (Char × Char))
  deriving DecidableEq, Repr

/-- The ranges of a class. A hyphen between two characters makes a range of them, which is empty if
they are not in order. -/
def ranges : List Char → List (Char × Char)
  | first :: '-' :: last :: rest => (first, last) :: ranges rest
  | c :: rest => (c, c) :: ranges rest
  | [] => []

/-- Reads the ranges of a class up to its bracket. The first character of a class is always one of
its members. -/
def cutRanges (negated : Bool) : List Char → Option (Part × List Char)
  | [] => none
  | first :: rest =>
      match rest.dropWhile (· ≠ ']') with
      | [] => none
      | _ :: behind =>
          some (.oneOf negated (ranges (first :: rest.takeWhile (· ≠ ']'))), behind)

def cutClass : List Char → Option (Part × List Char)
  | '!' :: rest => cutRanges true rest
  | rest => cutRanges false rest

theorem cutRanges_length {negated : Bool} {cs behind : List Char} {part : Part}
    (h : cutRanges negated cs = some (part, behind)) : behind.length < cs.length := by
  cases cs with
  | nil => cases h
  | cons first rest =>
    rw [cutRanges] at h
    split at h
    next => cases h
    next stops =>
      cases h
      exact Nat.lt_succ_of_lt (Text.length_lt_of_dropWhile stops)

theorem cutClass_length {cs behind : List Char} {part : Part}
    (h : cutClass cs = some (part, behind)) : behind.length < cs.length := by
  unfold cutClass at h
  split at h
  · have := cutRanges_length h; grind
  · exact cutRanges_length h

/-- Reads a pattern. Two stars have to be a whole name, and three are an error. `fresh` tells
whether a name starts here. -/
def readFrom (fresh : Bool) : List Char → Option (List Part)
  | [] => some []
  | '?' :: rest => (readFrom false rest).map (.any :: ·)
  | '*' :: '*' :: rest =>
      match rest with
      | [] => if fresh then some [.deep] else none
      | '/' :: rest => if fresh then (readFrom true rest).map (.deep :: ·) else none
      | _ => none
  | '*' :: rest => (readFrom false rest).map (.many :: ·)
  | '[' :: rest =>
      match h : cutClass rest with
      | none => none
      | some (part, behind) =>
          have := cutClass_length h
          (readFrom false behind).map (part :: ·)
  | c :: rest => (readFrom (c = '/') rest).map (.char c :: ·)
  termination_by cs => cs.length
  decreasing_by all_goals grind

/-- The parts of a pattern, or `none` if it is not one. -/
def read (pattern : List Char) : Option (List Part) := readFrom true pattern

def inRanges (ranges : List (Char × Char)) (c : Char) : Bool :=
  ranges.any fun (low, high) => decide (low.toNat ≤ c.toNat) && decide (c.toNat ≤ high.toNat)

/-- The places behind a part, from the places before it. -/
def Part.follow (name : List Char) (places : Text.Places) : Part → Text.Places
  | char c => places.step (· == c) name
  | any => places.step (fun _ => true) name
  | many | deep => places.spread false
  | oneOf negated ranges => places.step (fun c => inRanges ranges c != negated) name

def isMatch (parts : List Part) (name : String) : Bool :=
  let name := name.toList
  (parts.foldl (Part.follow name) (Text.Places.start name)).atEnd

def literal? : List Part → Option (List Char)
  | [] => some []
  | .char c :: rest => (literal? rest).map (c :: ·)
  | _ => none

end TopicLint.Wildcard
