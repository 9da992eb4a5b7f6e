import TopicLint.Proofs.Rule.Reach
import TopicLint.Proofs.Text.Order

/-! The two halves of a rule book, the list of its rules and the index, stay in step. Whatever is done to
a book, it is the book of the rules that are left, put in one after the other. -/

namespace TopicLint

namespace RuleBook

section Keys

variable {index : List (String × List Rule)} {rule : Rule} {known : String}

/-- An index that lists each of its keys once, and has rules for all of them. -/
structure Filed (index : List (String × List Rule)) : Prop where
  nodup : (index.map (·.1)).Nodup
  filled : ∀ key, key ∈ index.map (·.1) ↔ held index key ≠ []

theorem mem_keys_insert {key : String} :
    key ∈ (insert rule known index).map (·.1) ↔ key ∈ index.map (·.1) ∨ key = known := by
  induction index with
  | nil => simp [insert]
  | cons entry rest ih =>
    rw [insert]
    by_cases here : entry.1 = known
    · rw [if_pos here, List.map_cons, List.map_cons, List.mem_cons]
      exact ⟨.inl, fun either => either.elim id fun same => .inl (same.trans here.symm)⟩
    · rw [if_neg here, List.map_cons, List.map_cons, List.mem_cons, List.mem_cons, ih, or_assoc]

theorem nodup_keys_insert (nodup : (index.map (·.1)).Nodup) :
    ((insert rule known index).map (·.1)).Nodup := by
  induction index with
  | nil => exact List.nodup_cons.2 ⟨List.not_mem_nil, List.nodup_nil⟩
  | cons entry rest ih =>
    rw [List.map_cons, List.nodup_cons] at nodup
    rw [insert]
    by_cases here : entry.1 = known
    · rw [if_pos here]
      exact List.nodup_cons.2 nodup
    · rw [if_neg here, List.map_cons, List.nodup_cons, mem_keys_insert]
      exact ⟨not_or.2 ⟨nodup.1, here⟩, ih nodup.2⟩

theorem filed_nil : Filed [] where
  nodup := List.nodup_nil
  filled key := by simp [held]

theorem Filed.insert (filed : Filed index) : Filed (RuleBook.insert rule known index) where
  nodup := nodup_keys_insert filed.nodup
  filled key := by
    rw [mem_keys_insert, filed.filled, held_insert]
    by_cases same : known = key
    · simp [same]
    · simp [same, Ne.symm same]

theorem Filed.add {book : RuleBook} (filed : Filed book.index) : Filed (book.add rule).index :=
  List.foldlRecOn (motive := Filed) rule.extensions _ filed fun _ before _ _ => before.insert

theorem filed_ofRules (rules : List Rule) : Filed (ofRules rules).index :=
  List.foldlRecOn (motive := fun book : RuleBook => Filed book.index) rules _ filed_nil
    fun _ before _ _ => before.add

end Keys

/-- What one can do to a rule book. -/
inductive Operation where
  | add (rule : Rule)
  /-- To leave the book for a new one of some rules. -/
  | collect (rules : List Rule)
  | retain (keep : Rule → Bool)

/-- The book after an operation. -/
def perform (book : RuleBook) : Operation → RuleBook
  | .add rule => book.add rule
  | .collect rules => ofRules rules
  | .retain keep => book.retain keep

/-- What an operation leaves of a list of rules. -/
def Operation.leave (rules : List Rule) : Operation → List Rule
  | .add rule => rules ++ [rule]
  | .collect rules => rules
  | .retain keep => rules.filter keep

/-- The book that operations make of a new one. -/
def run (operations : List Operation) : RuleBook := operations.foldl perform empty

/-- The rules that survive operations, in the order in which they were added. -/
def survivors (operations : List Operation) : List Rule := operations.foldl Operation.leave []

theorem ofRules_append (rules more : List Rule) :
    ofRules (rules ++ more) = more.foldl add (ofRules rules) := List.foldl_append

theorem perform_ofRules (rules : List Rule) (operation : Operation) :
    (ofRules rules).perform operation = ofRules (operation.leave rules) := by
  cases operation with
  | add rule => exact (ofRules_append rules [rule]).symm
  | collect rules => rfl
  | retain keep => rw [perform, retain, rules_ofRules, Operation.leave]

theorem foldl_perform (rules : List Rule) (operations : List Operation) :
    operations.foldl perform (ofRules rules) = ofRules (operations.foldl Operation.leave rules) := by
  induction operations generalizing rules with
  | nil => rfl
  | cons operation rest ih => rw [List.foldl_cons, perform_ofRules, ih, List.foldl_cons]

/-- Operations leave the book of the rules that survive them. -/
theorem run_eq_ofRules (operations : List Operation) : run operations = ofRules (survivors operations) :=
  foldl_perform [] operations

theorem run_adds (rules : List Rule) : run (rules.map .add) = ofRules rules := by
  rw [run, List.foldl_map]
  rfl

theorem retain_retain (rules : List Rule) (keep hold : Rule → Bool) :
    ((ofRules rules).retain keep).retain hold =
      (ofRules rules).retain fun rule => keep rule && hold rule := by
  rw [retain, retain, retain, rules_ofRules, rules_ofRules, List.filter_filter]
  congr 2
  funext rule
  exact Bool.and_comm _ _

/-- A book that is in step with a list of rules. -/
structure InStep (book : RuleBook) (rules : List Rule) : Prop where
  rules_eq : book.rules = rules
  /-- Under a key stand the rules that list it, in their order, each one as often as it lists the key. -/
  lookup_eq : ∀ key, book.lookup key = rules.flatMap fun rule => List.replicate (listings key rule) rule
  /-- A name stands for what is behind its last dot, and for itself if it has none. -/
  rulesFor_eq : ∀ key, '.' ∉ key.toList → book.rulesFor key = book.lookup key ∧
    ∀ start, book.rulesFor (start ++ "." ++ key) = book.lookup key
  mem_extensions : ∀ key, key ∈ book.extensions ↔ book.lookup key ≠ []
  extensions_sorted : book.extensions.Pairwise fun one two => Text.atMost one two = true ∧ one ≠ two

theorem inStep_ofRules (rules : List Rule) : (ofRules rules).InStep rules where
  rules_eq := rules_ofRules rules
  lookup_eq _ := lookup_ofRules rules
  rulesFor_eq key plain := by
    have found : (ofRules rules).rulesFor key = (ofRules rules).lookup key := by
      rw [rulesFor, Text.afterLast_of_notMem plain]
    exact ⟨found, fun start => ((ofRules rules).rulesFor_append start key).trans found⟩
  mem_extensions key := by
    rw [extensions, List.mem_mergeSort]
    exact (filed_ofRules rules).filled key
  extensions_sorted := by
    have sorted := Text.pairwise_lt_mergeSort (filed_ofRules rules).nodup
    exact sorted.imp fun less => ⟨Text.atMost_iff.2 less.le, less.ne⟩

/-- However a book came about, it is in step with the rules that are left. Keeping some of them leaves the
book that they make when they are added to a new one, and to keep twice is to keep what passes both. -/
theorem inStep_run (operations : List Operation) :
    (run operations).InStep (survivors operations) ∧
    (∀ keep, (run operations).retain keep = run (((survivors operations).filter keep).map .add)) ∧
    ∀ keep hold, ((run operations).retain keep).retain hold =
      (run operations).retain fun rule => keep rule && hold rule := by
  rw [run_eq_ofRules]
  refine ⟨inStep_ofRules _, fun keep => ?_, retain_retain _⟩
  rw [run_adds, retain, rules_ofRules]

/-- A rule that lists an extension twice, once with a dot, one that is taken out again, and one without
extensions. -/
example :
    let rule (source : String) (extensions : List String) : Rule :=
      ⟨source, none, .error, extensions, ⟨[]⟩, ⟨[]⟩, "m"⟩
    let twice := rule "twice.txt" ["htm", ".htm", "."]
    let bare := rule "bare.txt" []
    let book := run [.collect [rule "gone.txt" ["fltoc"], twice], .add bare, .retain (·.source != "gone.txt")]
    book.rules = [twice, bare] ∧ book.lookup "htm" = [twice, twice] ∧ book.lookup "" = [twice] ∧
      book.lookup "fltoc" = [] ∧ book.index.map (·.1) = ["htm", ""] := by decide +kernel

end RuleBook

end TopicLint
