import TopicLint.Rule.Book

/-! What rule books hold. Under a key a book finds its rules in the order they were added, each one
as often as it lists the key; an extension is listed with a dot before it or without. -/

namespace TopicLint

namespace RuleBook

/-- The rules that an index holds for a key. -/
def held (index : List (String × List Rule)) (key : String) : List Rule :=
  ((index.find? fun entry => entry.1 == key).map (·.2)).getD []

/-- How often a rule lists a key, where one dot at the start of what is listed is dropped. -/
def listings (key : String) (rule : Rule) : Nat :=
  rule.extensions.countP fun listed =>
    decide (listed = "." ++ key ∨ listed = key ∧ key.toList.head? ≠ some '.')

theorem key_eq_iff {listed extension : String} : key listed = extension ↔
    listed = "." ++ extension ∨ listed = extension ∧ extension.toList.head? ≠ some '.' := by
  unfold key
  split
  next rest dotted =>
    have dots : listed = "." ++ extension ↔ rest = extension.toList := by
      rw [← String.toList_inj, dotted, String.toList_append]
      exact List.cons_inj_right '.'
    have apart : ¬(listed = extension ∧ extension.toList.head? ≠ some '.') := by
      rintro ⟨rfl, undotted⟩
      exact undotted (dotted ▸ rfl)
    rw [← String.toList_inj, String.toList_ofList, dots, or_iff_left apart]
  next plain =>
    have apart : listed ≠ "." ++ extension := by
      rintro rfl
      exact plain extension.toList (String.toList_append ..)
    rw [or_iff_right apart]
    refine ⟨?_, And.left⟩
    rintro rfl
    refine ⟨rfl, fun dotted => ?_⟩
    obtain ⟨rest, whole⟩ := List.head?_eq_some_iff.1 dotted
    exact plain rest whole

section Lookups

variable {index : List (String × List Rule)} {rule : Rule} {known key : String}

theorem held_cons (entry : String × List Rule) :
    held (entry :: index) key = if entry.1 = key then entry.2 else held index key := by
  by_cases same : entry.1 = key
  · simp [held, same]
  · simp [held, same]

/-- A rule is put behind the others of its key, and the other keys keep theirs. -/
theorem held_insert :
    held (insert rule known index) key = held index key ++ if known = key then [rule] else [] := by
  induction index with
  | nil =>
    rw [insert, held_cons]
    simp [held]
  | cons entry rest ih =>
    rw [insert, held_cons]
    by_cases here : entry.1 = known
    · rw [if_pos here, held_cons]
      by_cases same : entry.1 = key
      · simp [same, here ▸ same]
      · simp [same, here ▸ same]
    · rw [if_neg here, held_cons, ih]
      by_cases same : entry.1 = key
      · have apart : known ≠ key := fun other => here (same.trans other.symm)
        simp [same, apart]
      · simp [same]

theorem held_insertAll (extensions : List String) :
    held (extensions.foldl (fun index extension => insert rule (RuleBook.key extension) index) index) key =
      held index key ++
        List.replicate (extensions.countP fun extension => RuleBook.key extension == key) rule := by
  induction extensions generalizing index with
  | nil => simp
  | cons extension rest ih =>
    rw [List.foldl_cons, ih, held_insert, List.append_assoc]
    by_cases listed : RuleBook.key extension = key
    · simp [listed, List.replicate_succ]
    · simp [listed]

theorem lookup_add (book : RuleBook) :
    (book.add rule).lookup key = book.lookup key ++ List.replicate (listings key rule) rule := by
  have counts : rule.extensions.countP (fun listed => RuleBook.key listed == key) = listings key rule :=
    List.countP_congr fun listed _ => by rw [beq_iff_eq, key_eq_iff, decide_eq_true_eq]
  rw [← counts]
  exact held_insertAll rule.extensions

theorem lookup_addAll (book : RuleBook) (rules : List Rule) :
    (rules.foldl add book).lookup key =
      book.lookup key ++ rules.flatMap fun rule => List.replicate (listings key rule) rule := by
  induction rules generalizing book with
  | nil => simp
  | cons rule rest ih => rw [List.foldl_cons, ih, lookup_add, List.append_assoc, List.flatMap_cons]

theorem lookup_ofRules (rules : List Rule) :
    (ofRules rules).lookup key = rules.flatMap fun rule => List.replicate (listings key rule) rule :=
  lookup_addAll empty rules

theorem rules_addAll (book : RuleBook) (rules : List Rule) :
    (rules.foldl add book).rules = book.rules ++ rules := by
  induction rules generalizing book with
  | nil => simp
  | cons rule rest ih =>
    rw [List.foldl_cons, ih, add, List.append_assoc, List.singleton_append]

theorem rules_ofRules (rules : List Rule) : (ofRules rules).rules = rules := rules_addAll empty rules

end Lookups

end RuleBook

section Extensions

variable {path extension : String}

theorem Text.afterLast_of_notMem {mark : Char} {text : String} (free : mark ∉ text.toList) :
    Text.afterLast mark text = text := by
  have all : ∀ c ∈ text.toList.reverse, decide (c ≠ mark) = true := by
    intro c member
    have inside := List.mem_reverse.1 member
    exact decide_eq_true fun same => free (same ▸ inside)
  have whole : text.toList.reverse.takeWhile (· ≠ mark) = text.toList.reverse := by
    have run := @List.takeWhile_append_of_pos _ _ _ [] all
    rwa [List.append_nil, List.takeWhile_nil, List.append_nil] at run
  rw [Text.afterLast, whole, List.reverse_reverse, String.ofList_toList]

theorem Path.dot_notMem_extension (found : Path.extension path = some extension) :
    '.' ∉ extension.toList := by
  unfold Path.extension at found
  obtain ⟨name, -, last⟩ := Option.bind_eq_some_iff.1 found
  dsimp only at last
  split at last
  · cases last
    intro member
    rw [String.toList_ofList, List.mem_reverse] at member
    have apart := List.all_eq_true.1 List.all_takeWhile _ member
    exact absurd apart (by decide)
  · cases last

/-- An extension without dots is listed as it is and with a dot before it. -/
theorem RuleBook.listings_of_notMem (free : '.' ∉ extension.toList) (rule : Rule) :
    RuleBook.listings extension rule =
      rule.extensions.count extension + rule.extensions.count ("." ++ extension) := by
  have undotted : extension.toList.head? ≠ some '.' := fun dotted => free (List.mem_of_head? dotted)
  have apart : extension ≠ "." ++ extension := by
    intro same
    rw [same, String.toList_append] at undotted
    exact undotted rfl
  simp only [RuleBook.listings, ne_eq, undotted, not_false_eq_true, and_true]
  induction rule.extensions with
  | nil => rfl
  | cons listed rest ih =>
    simp only [List.countP_cons, List.count_cons, ih, beq_iff_eq, decide_eq_true_eq]
    by_cases plain : listed = extension
    · have unlike : listed ≠ "." ++ extension := fun dotted => apart (plain.symm.trans dotted)
      rw [if_pos (.inr plain), if_pos plain, if_neg unlike]
      omega
    · by_cases dotted : listed = "." ++ extension
      · rw [if_pos (.inl dotted), if_neg plain, if_pos dotted]
        omega
      · rw [if_neg (not_or.2 ⟨dotted, plain⟩), if_neg plain, if_neg dotted]
        rfl

end Extensions

/-- How often a rule lists the extension of a path, with a dot before it or without. -/
def Rule.listings (rule : Rule) (path : String) : Nat :=
  match Path.extension path with
  | some extension => rule.extensions.count extension + rule.extensions.count ("." ++ extension)
  | none => 0

theorem RuleBook.listings_eq {path extension : String} (found : Path.extension path = some extension)
    (rule : Rule) : RuleBook.listings extension rule = rule.listings path := by
  rw [RuleBook.listings_of_notMem (Path.dot_notMem_extension found), Rule.listings, found]

/-- For a path a book finds its rules as often as they list the extension of the path. -/
theorem RuleBook.rulesForPath_ofRules (rules : List Rule) (path : String) :
    (RuleBook.ofRules rules).rulesForPath path =
      rules.flatMap fun rule => List.replicate (rule.listings path) rule := by
  unfold RuleBook.rulesForPath
  cases found : Path.extension path with
  | none => simp [Rule.listings, found]
  | some extension =>
    simp only [RuleBook.rulesFor, Text.afterLast_of_notMem (Path.dot_notMem_extension found),
      RuleBook.lookup_ofRules, RuleBook.listings_eq found]

end TopicLint
