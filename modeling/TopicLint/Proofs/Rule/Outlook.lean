import TopicLint.Proofs.Document.Nearest
import TopicLint.Proofs.Text.Blank
import TopicLint.Rule.Evaluate

/-! What checks depend on. A check with a tag asks about the nearest node along its axis and about nothing
else, so it may as well be made at that node; and what it says of nothing is the same wherever it was
asked. A check for a style or for a variable holds if some element along the axis passes it, however far
away. -/

namespace TopicLint.Rule.Check

/-- The tag of the node that a check asks about. A check for a style or for a variable has none. -/
def tag? : Check → Option String
  | present tag | empty tag | position tag _ | first tag | last tag | padding tag | contains tag _
  | ownText tag _ | ends tag _ | begins tag _ | hasAttribute tag _ | attributeEquals tag _ _
  | attributeContains tag _ _ | attributeEnds tag _ _ => some tag
  | style _ | namesVariable _ => none

/-- What a check says of nothing. -/
def vacant : Check → Bool
  | last _ => true
  | contains _ text | ownText _ text | attributeEquals _ _ text | attributeContains _ _ text =>
      text.isEmpty
  | ends _ text | begins _ text | attributeEnds _ _ text => text.toList.all Text.isBlank
  | _ => false

variable {doc : Document} {axis : Axis} {node : Node} {check : Check} {tag : String}

/-- A check with a tag depends on the nearest node only. -/
theorem holds_congr {way : Axis} {other : Node} (tagged : check.tag? = some tag)
    (same : node.along doc axis tag = other.along doc way tag) :
    check.holds doc axis node = check.holds doc way other := by
  cases check with
  | style spec => cases tagged
  | namesVariable name => cases tagged
  | _ =>
    cases tagged
    simp only [holds, holds.nearest, same]

theorem endsWith_trim (text : String) :
    Text.endsWith (Text.trim "") (Text.trimEnd text) = text.toList.all Text.isBlank := by
  rw [Text.trim_empty, Text.endsWith_empty, Bool.eq_iff_iff, Text.isEmpty_trimEnd_iff, List.all_eq_true]

theorem startsWith_trim (text : String) :
    Text.startsWith (Text.trim "") (Text.trimStart text) = text.toList.all Text.isBlank := by
  rw [Text.trim_empty, Text.startsWith_empty, Bool.eq_iff_iff, Text.isEmpty_trimStart_iff,
    List.all_eq_true]

/-- From nothing a check says what it says of nothing. -/
theorem holds_nothing (check : Check) : check.holds doc axis .nothing = check.vacant := by
  cases check with
  | contains tag text => exact Text.contains_empty text
  | ownText tag text => exact Text.contains_empty text
  | attributeContains tag name text => exact Text.contains_empty text
  | ends tag text => exact endsWith_trim text
  | attributeEnds tag name text => exact endsWith_trim text
  | begins tag text => exact startsWith_trim text
  | attributeEquals tag name text =>
    change ("" == text) = text.isEmpty
    rw [Bool.eq_iff_iff, beq_iff_eq, String.isEmpty_iff, eq_comm]
  | padding tag => exact bne_eq_false_iff_eq.2 Text.trim_empty
  | hasAttribute tag name =>
    change (! (Text.trim "").isEmpty) = false
    rw [Text.trim_empty]
    rfl
  | position tag place =>
    change ((-1 : Int) == place) = false
    rw [beq_eq_false_iff_ne]
    omega
  | _ => rfl

/-- What the checks of a rule look at, along an axis from a node. -/
structure Looks (doc : Document) (axis : Axis) (node : Node) : Prop where
  /-- The nearest node is the first one along the axis whose name matches. -/
  nearest : ∀ tag, (node.along doc axis tag).id? = (doc.matching tag (doc.reached axis node)).head?
  /-- A check with a tag may as well be made at the nearest node. -/
  factors : ∀ (check : Check) tag, check.tag? = some tag →
    check.holds doc axis node = check.holds doc .itself (node.along doc axis tag)
  /-- Where no node is nearest the answer depends on the check alone. -/
  misses : ∀ (check : Check) tag, check.tag? = some tag → node.along doc axis tag = .nothing →
    check.holds doc axis node = check.vacant
  /-- A check for a style asks all elements along the axis. -/
  style_iff : ∀ spec, (style spec).holds doc axis node = true ↔
    ∃ id ∈ doc.reached axis node, id < doc.size ∧ (Node.found id 0).hasStyle doc spec = true
  /-- A check for a variable asks all references along the axis. -/
  namesVariable_iff : ∀ name, (namesVariable name).holds doc axis node = true ↔
    ∃ id ∈ doc.matching variableName (doc.reached axis node),
      (Node.found id 0).attr doc "name" = name

/-- Every check looks at the nearest node along its axis, and those for a style and for a variable at
all elements along it. -/
theorem looks (doc : Document) (axis : Axis) (node : Node) : Looks doc axis node where
  nearest := Node.id?_along
  factors check tag tagged := holds_congr tagged (Node.along_itself_along tag).symm
  misses check tag tagged missed := by
    have same : check.holds doc axis node = check.holds doc axis .nothing := holds_congr tagged missed
    exact same.trans (holds_nothing check)
  style_iff spec := by
    refine (Node.exists_alongWhere_iff fun _ _ => rfl).trans ?_
    simp only [Node.mem_matching_iff, Node.matchesName_anyName, and_assoc]
  namesVariable_iff name := by
    refine (Node.exists_alongWhere_iff fun _ _ => rfl).trans ?_
    simp only [beq_iff_eq]

end TopicLint.Rule.Check
