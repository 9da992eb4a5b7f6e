import TopicLint.Proofs.Document.Nearest
import TopicLint.Rule.Evaluate

/-! Checks of a place in a walk. A check looks at the nearest node along its axis, which is the first one
of its walk; only the axis that stays keeps the place that a node came with, and rules are tried on nodes
that come with the first place. So in a rule a check of a place asks whether there is a node, or it never
holds. -/

namespace TopicLint

namespace Node

variable {doc : Document} {axis : Axis} {tag : String} {id start place rank : Nat}

/-- The nearest node has the first place of its walk, or the place of the node itself. -/
theorem place_of_along (nearest : (found start place).along doc axis tag = found id rank) :
    rank = if axis = .itself then place else 0 := by
  rw [along, alongWhere] at nearest
  by_cases stays : axis = .itself
  · rw [if_pos stays] at nearest ⊢
    split at nearest
    next =>
      cases nearest
      rfl
    next => cases nearest
  · rw [if_neg stays] at nearest ⊢
    obtain ⟨listed, -, refused⟩ := firstMatch_eq_found_iff.1 nearest
    by_contra behind
    -- No element is refused, so the first one of the walk would have been found before.
    have before : 0 < rank := Nat.pos_of_ne_zero behind
    have bound := (List.getElem?_eq_some_iff.1 listed).1
    cases refused 0 before _ (List.getElem?_eq_getElem (Nat.lt_trans before bound))

end Node

namespace Rule

variable {doc : Document} {axis : Axis} {tag : String} {start place asked : Nat} {node : Node}

theorem Check.position_iff : (Check.position tag asked).holds doc axis (.found start place) = true ↔
    asked = (if axis = .itself then place else 0) ∧
      (Check.present tag).holds doc axis (.found start place) = true := by
  simp only [Check.holds, Check.holds.nearest, beq_iff_eq]
  cases nearest : (Node.found start place).along doc axis tag with
  | nothing =>
    have nowhere : (-1 : Int) ≠ asked := by omega
    exact iff_of_false nowhere fun both => Bool.false_ne_true both.2
  | found id rank =>
    have there : (Node.found id rank).exists? = true := rfl
    rw [← Node.place_of_along nearest, and_iff_left there, eq_comm (a := asked)]
    exact Int.ofNat_inj

/-- Whether a predicate asks, without being negated, for a place behind the first one. -/
def Predicate.asksBehind : Predicate → Bool
  | ⟨false, .along _ (.position _ place)⟩ => decide (0 < place)
  | _ => false

/-- Whether each line of an expression asks for a place behind the first one. -/
def Expression.asksBehind (expression : Expression) : Bool :=
  expression.lines.all fun line => line.any Predicate.asksBehind

theorem exists_of_mem_nodes (member : node ∈ doc.nodes) : ∃ id, node = .found id 0 := by
  obtain ⟨id, -, rfl⟩ := List.mem_map.1 member
  exact ⟨id, rfl⟩

theorem position_iff_of_mem_nodes (member : node ∈ doc.nodes) :
    (Check.position tag asked).holds doc axis node = true ↔
      asked = 0 ∧ (Check.present tag).holds doc axis node = true := by
  obtain ⟨id, rfl⟩ := exists_of_mem_nodes member
  rw [Check.position_iff, ite_self]

theorem Predicate.holds_of_asksBehind (member : node ∈ doc.nodes) {predicate : Predicate}
    (asks : predicate.asksBehind = true) : predicate.holds doc node = false := by
  unfold asksBehind at asks
  split at asks
  next view tag asked =>
    have behind : asked ≠ 0 := Nat.ne_of_gt (of_decide_eq_true asks)
    have fails : (Check.position tag asked).holds doc view.axis node = false :=
      Bool.eq_false_iff.2 fun holds => behind ((position_iff_of_mem_nodes member).1 holds).1
    rw [Predicate.holds, Question.holds, fails]
    rfl
  next => cases asks

theorem Expression.holds_of_asksBehind (member : node ∈ doc.nodes) {expression : Expression}
    (asks : expression.asksBehind = true) : expression.holds doc node = false := by
  refine List.any_eq_false.2 fun line listed holds => ?_
  obtain ⟨predicate, inside, asks⟩ := List.any_eq_true.1 (List.all_eq_true.1 asks line listed)
  have fails := predicate.holds_of_asksBehind member asks
  rw [List.all_eq_true.1 holds predicate inside] at fails
  cases fails

/-- On the nodes that rules are tried on, a check of a place holds if the place is the first one and a node
with the tag is there, whatever the view. So an expression that asks for another place on each of its lines
holds nowhere: as a condition it silences its rule, and as a test it is never passed. -/
theorem position_inert (doc : Document) (node : Node) (member : node ∈ doc.nodes) :
    (∀ view tag asked, (Check.position tag asked).holds doc (View.axis view) node = true ↔
      asked = 0 ∧ (Check.present tag).holds doc (View.axis view) node = true) ∧
    (∀ expression : Expression, expression.asksBehind = true → expression.holds doc node = false) ∧
    ∀ rule : Rule, (rule.condition.asksBehind = true → rule.finds doc node = false) ∧
      (rule.test.asksBehind = true → rule.finds doc node = rule.condition.holds doc node) := by
  refine ⟨fun _ _ _ => position_iff_of_mem_nodes member,
    fun _ => Expression.holds_of_asksBehind member, fun rule => ⟨?_, ?_⟩⟩
  · intro asks
    rw [finds, Expression.holds_of_asksBehind member asks, Bool.false_and]
  · intro asks
    rw [finds, Expression.holds_of_asksBehind member asks, Bool.not_false, Bool.and_true]

/-- A table with two rows. -/
def table : Tree :=
  let row (line : Nat) : Tag := ⟨⟨none, "tr"⟩, [], line, 1⟩
  ⟨⟨⟨none, "table"⟩, [], 1, 1⟩, .element (row 2) .nil (.element (row 3) .nil .nil)⟩

/-- `descendant-position tr 1` -/
def secondRow : Expression := ⟨[[⟨false, .along .descendant (.position "tr" 1)⟩]]⟩

/-- That there is a second row makes no difference. -/
theorem position_inert_table :
    Node.found 0 0 ∈ (Document.ofTree table "en-us").nodes ∧ secondRow.asksBehind = true ∧
      (Document.ofTree table "en-us").matching "tr"
        ((Document.ofTree table "en-us").walk 0 .descendant) = [1, 2] ∧
      secondRow.holds (Document.ofTree table "en-us") (.found 0 0) = false := by
  have member : Node.found 0 0 ∈ (Document.ofTree table "en-us").nodes := by decide +kernel
  have asks : secondRow.asksBehind = true := by decide +kernel
  refine ⟨member, asks, by decide +kernel, ?_⟩
  exact (position_inert (Document.ofTree table "en-us") (.found 0 0) member).2.1 secondRow asks

end Rule

end TopicLint
