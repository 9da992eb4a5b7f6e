import TopicLint.Lint
import TopicLint.Proofs.Rule.Book
import TopicLint.Rule.Compile

/-! What a document is told. Every rule of a book is tried on every node, and tells what it finds
there as often as it lists the extension of the document's path. -/

namespace TopicLint.Linter

variable (config : Config) (doc : Document) (path : String) (node : Node) (rule : Rule)

/-- Whether a rule has something to say about a node of a document. -/
structure Due : Prop where
  enabled : config.enables rule.source = true
  listed : ∃ extension, Path.extension path = some extension ∧
    (extension ∈ rule.extensions ∨ "." ++ extension ∈ rule.extensions)
  applies : rule.condition.holds doc node = true
  fails : rule.test.holds doc node = false
  reported : config.reports rule.severity = true

/-- How often a rule tells its finding on a node. -/
def tellings : Nat :=
  if config.enables rule.source && (rule.finds doc node && config.reports rule.severity) then
    rule.listings path
  else 0

theorem listings_pos : 0 < rule.listings path ↔ ∃ extension, Path.extension path = some extension ∧
    (extension ∈ rule.extensions ∨ "." ++ extension ∈ rule.extensions) := by
  unfold Rule.listings
  cases Path.extension path with
  | none => simp
  | some extension =>
    simp only [Option.some.injEq, exists_eq_left', ← List.count_pos_iff]
    omega

theorem tellings_eq_listings (due : Due config doc path node rule) :
    tellings config doc path node rule = rule.listings path := by
  rw [tellings, if_pos (by simp [Rule.finds, due.enabled, due.applies, due.fails, due.reported])]

theorem tellings_eq_zero (idle : ¬Due config doc path node rule) :
    tellings config doc path node rule = 0 := by
  unfold tellings
  split
  next speaks =>
    simp only [Rule.finds, Bool.and_eq_true, Bool.not_eq_true'] at speaks
    obtain ⟨enabled, ⟨applies, fails⟩, reported⟩ := speaks
    apply Nat.eq_zero_of_not_pos
    intro listed
    exact idle ⟨enabled, (listings_pos path rule).1 listed, applies, fails, reported⟩
  next => rfl

/-- Where a rule has something to say it says so once, just if it lists the extension once. -/
theorem tellings_iff :
    (tellings config doc path node rule ≤ 1 ∧
      (tellings config doc path node rule = 1 ↔ Due config doc path node rule)) ↔
      (Due config doc path node rule → rule.listings path = 1) := by
  by_cases due : Due config doc path node rule
  · have positive := (listings_pos path rule).2 due.listed
    rw [tellings_eq_listings _ _ _ _ _ due]
    simp only [due, iff_true, true_imp_iff]
    omega
  · rw [tellings_eq_zero _ _ _ _ _ due]
    simp [due]

theorem rulesForPath_ofBook (rules : List Rule) :
    (ofBook (RuleBook.ofRules rules) config).book.rulesForPath path =
      (rules.filter fun rule => config.enables rule.source).flatMap fun rule =>
        List.replicate (rule.listings path) rule := by
  rw [ofBook, RuleBook.retain, RuleBook.rules_ofRules, RuleBook.rulesForPath_ofRules]

/-- What a rule that is not disabled says about a node. -/
theorem replicate_tellings (enabled : config.enables rule.source = true) (diagnostic : Diagnostic) :
    List.replicate (tellings config doc path node rule) diagnostic =
      if rule.finds doc node && config.reports rule.severity then
        List.replicate (rule.listings path) diagnostic
      else [] := by
  rw [tellings, enabled, Bool.true_and]
  split <;> rfl

theorem findings_ofBook (rules : List Rule) :
    (ofBook (RuleBook.ofRules rules) config).findings doc path
        ((ofBook (RuleBook.ofRules rules) config).book.rulesForPath path) node =
      rules.flatMap fun rule => List.replicate (tellings config doc path node rule)
        (Diagnostic.ofNode doc rule.source rule.severity rule.message path node) := by
  have speaking : (ofBook (RuleBook.ofRules rules) config).speaks doc node =
      fun rule => rule.finds doc node && config.reports rule.severity := rfl
  rw [rulesForPath_ofBook, findings, speaking, List.filter_flatMap, List.map_flatMap]
  simp only [List.filter_replicate]
  clear speaking
  induction rules with
  | nil => rfl
  | cons rule rest ih =>
    rw [List.flatMap_cons, ← ih]
    by_cases enabled : config.enables rule.source = true
    · rw [List.filter_cons, if_pos enabled, List.flatMap_cons,
        replicate_tellings config doc path node rule enabled]
      congr 1
      split
      · exact List.map_replicate
      · rfl
    · have idle : tellings config doc path node rule = 0 :=
        tellings_eq_zero config doc path node rule fun due => enabled due.enabled
      rw [List.filter_cons, if_neg enabled, idle, List.replicate_zero, List.nil_append]

/-- What is reported on a document: node by node and rule by rule the finding of the rule, as often as
the rule lists the extension of the path. So a rule tells what it finds once, and nothing else, just
if it does not list the extension more than once. -/
theorem lintDocument_ofRules (rules : List Rule) :
    (ofBook (RuleBook.ofRules rules) config).lintDocument doc path =
      (doc.nodes.flatMap fun node => rules.flatMap fun rule =>
        List.replicate (tellings config doc path node rule)
          (Diagnostic.ofNode doc rule.source rule.severity rule.message path node)) ∧
    ∀ node rule, (tellings config doc path node rule ≤ 1 ∧
      (tellings config doc path node rule = 1 ↔ Due config doc path node rule)) ↔
      (Due config doc path node rule → rule.listings path = 1) := by
  constructor
  · unfold lintDocument
    congr
    funext node
    exact findings_ofBook config doc path node rules
  · exact tellings_iff config doc path

/-- One rule that lists an extension with a dot and without tells what it finds on one node twice. -/
theorem told_twice :
    ((Rule.compile "r.txt"
        "rule: error\nextensions: htm .htm\nwhen: self p\ntest: fail\nmessage: m").toOption.bind
      fun rule => (Xml.parse "<p/>").map fun tree =>
        ((Document.ofTree tree "en-us").nodes.length,
          ((ofBook (RuleBook.ofRules [rule]) Config.standard).lintDocument
            (Document.ofTree tree "en-us") "a.htm").map (·.source))) = some (1, ["r.txt", "r.txt"]) := by
  decide +kernel

end TopicLint.Linter
