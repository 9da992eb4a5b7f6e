import TopicLint.Proofs.Rule.Book
import TopicLint.Rule.Compile

/-! Which files a rule reaches. Rules are filed under the extensions that they list, less a leading dot,
and looked up by what stands behind the last dot; so a rule reaches the files with an extension that it
lists, unless that extension has a dot inside. -/

namespace TopicLint

section Names

variable {path start extension : String}

theorem takeWhile_before {α : Type} {good : α → Bool} {mark : α} (stops : good mark = false)
    (text more : List α) : (text ++ mark :: more).takeWhile good = text.takeWhile good := by
  induction text with
  | nil => exact List.takeWhile_cons_of_neg (by simp [stops])
  | cons a rest ih => rw [List.cons_append, List.takeWhile_cons, List.takeWhile_cons, ih]

/-- What stands before a dot is not part of what stands behind the last one. -/
theorem behind_dot (start text : String) :
    (start ++ "." ++ text).toList.reverse.takeWhile (· ≠ '.') =
      text.toList.reverse.takeWhile (· ≠ '.') := by
  have turned : (start ++ "." ++ text).toList.reverse =
      text.toList.reverse ++ '.' :: start.toList.reverse := by simp
  rw [turned]
  exact takeWhile_before (by decide) _ _

theorem Text.afterLast_append (start text : String) :
    afterLast '.' (start ++ "." ++ text) = afterLast '.' text := by
  rw [afterLast, behind_dot, afterLast]

/-- The extension of a file name is what stands behind its last dot. -/
theorem Path.extension_of_fileName (filled : start ≠ "")
    (named : fileName path = some (start ++ "." ++ extension)) :
    Path.extension path = some (Text.afterLast '.' extension) := by
  have short : (extension.toList.reverse.takeWhile (· ≠ '.')).length ≤ extension.length := by
    calc (extension.toList.reverse.takeWhile (· ≠ '.')).length
      _ ≤ extension.toList.reverse.length := (List.takeWhile_sublist _).length_le
      _ = extension.length := by rw [List.length_reverse, String.length_toList]
  have counted : 0 < start.length := by
    apply Nat.pos_of_ne_zero
    simpa using filled
  have whole : (start ++ "." ++ extension).length = start.length + 1 + extension.length := by
    rw [String.length_append, String.length_append]
    rfl
  rw [Path.extension, named]
  show (if _ then _ else _) = _
  rw [behind_dot, if_pos (by omega), Text.afterLast]

end Names

namespace RuleBook

variable {book : RuleBook} {rule : Rule}

/-- A book that is made by putting rules in and taking rules out. -/
inductive Built : RuleBook → Prop where
  | empty : Built empty
  | add {book : RuleBook} (built : Built book) (rule : Rule) : Built (book.add rule)
  | retain {book : RuleBook} (built : Built book) (keep : Rule → Bool) : Built (book.retain keep)

theorem Built.addAll (built : Built book) (rules : List Rule) : Built (rules.foldl RuleBook.add book) := by
  induction rules generalizing book with
  | nil => exact built
  | cons rule rest ih => exact ih (built.add rule)

theorem built_ofRules (rules : List Rule) : Built (ofRules rules) := Built.empty.addAll rules

/-- A book holds what its rules make it hold. -/
theorem Built.eq_ofRules (built : Built book) : book = ofRules book.rules := by
  induction built with
  | empty => rfl
  | @add book built rule ih =>
    calc book.add rule
      _ = (ofRules book.rules).add rule := by rw [← ih]
      _ = ofRules (book.rules ++ [rule]) := by rw [ofRules, ofRules, List.foldl_append]; rfl
  | retain built keep ih => rw [RuleBook.retain, rules_ofRules]

/-- Under a key stand the rules that list it. -/
theorem Built.mem_lookup_iff (built : Built book) {key : String} :
    rule ∈ book.lookup key ↔ rule ∈ book.rules ∧ 0 < listings key rule := by
  rw [built.eq_ofRules, lookup_ofRules, rules_ofRules]
  simp [Nat.pos_iff_ne_zero]

theorem listings_pos_iff {extension : String} (plain : '.' ∉ extension.toList) :
    0 < listings extension rule ↔
      extension ∈ rule.extensions ∨ "." ++ extension ∈ rule.extensions := by
  rw [listings_of_notMem plain, Nat.add_pos_iff_pos_or_pos, List.count_pos_iff, List.count_pos_iff]

theorem rulesFor_append (book : RuleBook) (start extension : String) :
    book.rulesFor (start ++ "." ++ extension) = book.rulesFor extension := by
  rw [rulesFor, Text.afterLast_append, rulesFor]

theorem rulesForPath_of_fileName {path start extension : String} (filled : start ≠ "")
    (named : Path.fileName path = some (start ++ "." ++ extension)) :
    book.rulesForPath path = book.rulesFor extension := by
  have found := Path.extension_of_fileName filled named
  rw [rulesForPath, found]
  dsimp only
  rw [rulesFor, Text.afterLast_of_notMem (Path.dot_notMem_extension found), rulesFor]

/-- A rule reaches the files with an extension that it lists, with a dot before it or without, and that has
no dot inside. The extension may be looked up with a dot as well, as a file name or as that of a path. -/
theorem reaches (built : Built book) (member : rule ∈ book.rules) {extension : String}
    (lists : extension ∈ rule.extensions ∨ "." ++ extension ∈ rule.extensions)
    (plain : '.' ∉ extension.toList) {path start : String} (filled : start ≠ "")
    (named : Path.fileName path = some (start ++ "." ++ extension)) :
    rule ∈ book.rulesForPath path ∧ rule ∈ book.rulesFor extension ∧
      rule ∈ book.rulesFor ("." ++ extension) ∧ rule ∈ book.rulesFor (start ++ "." ++ extension) := by
  have found : rule ∈ book.rulesFor extension := by
    rw [rulesFor, Text.afterLast_of_notMem plain]
    exact built.mem_lookup_iff.2 ⟨member, (listings_pos_iff plain).2 lists⟩
  have dotted := book.rulesFor_append "" extension
  rw [String.empty_append] at dotted
  rw [rulesForPath_of_fileName filled named, dotted, rulesFor_append]
  exact ⟨found, found, found, found⟩

/-- A rule for an extension with a dot inside, and for one with a dot before it. -/
def archived : Rule where
  source := "r.txt"
  description := none
  severity := .error
  extensions := ["bak.htm", ".fltoc"]
  condition := ⟨[[⟨false, .along .self (.present "p")⟩]]⟩
  test := ⟨[[⟨false, .fail⟩]]⟩
  message := "m"

theorem reaches_fltoc :
    archived ∈ (ofRules [archived]).rulesForPath "Project/a.b.fltoc" ∧
      archived ∈ (ofRules [archived]).rulesFor "fltoc" ∧
      archived ∈ (ofRules [archived]).rulesFor ("." ++ "fltoc") ∧
      archived ∈ (ofRules [archived]).rulesFor ("a.b" ++ "." ++ "fltoc") := by
  have member : archived ∈ (ofRules [archived]).rules := by decide +kernel
  have lists : "fltoc" ∈ archived.extensions ∨ "." ++ "fltoc" ∈ archived.extensions := by decide +kernel
  have plain : '.' ∉ "fltoc".toList := by decide
  have filled : "a.b" ≠ "" := by decide
  have named : Path.fileName "Project/a.b.fltoc" = some ("a.b" ++ "." ++ "fltoc") := by decide +kernel
  exact reaches (built_ofRules [archived]) member lists plain filled named

/-- The rule does not reach the files with the extension that has a dot inside. -/
theorem misses_dotted :
    (Rule.compile "r.txt"
        "rule: error\nextensions: bak.htm .fltoc\nwhen: self p\ntest: fail\nmessage: m").toOption =
        some archived ∧
      Built (ofRules [archived]) ∧ archived ∈ (ofRules [archived]).rules ∧
      "bak.htm" ∈ archived.extensions ∧ key "bak.htm" = "bak.htm" ∧
      Path.fileName "x.bak.htm" = some ("x" ++ "." ++ "bak.htm") ∧
      archived ∉ (ofRules [archived]).rulesForPath "x.bak.htm" ∧
      archived ∉ (ofRules [archived]).rulesFor "bak.htm" ∧
      archived ∉ (ofRules [archived]).rulesFor ".bak.htm" ∧
      archived ∉ (ofRules [archived]).rulesFor "x.bak.htm" :=
  ⟨by decide +kernel, built_ofRules _, by decide +kernel, by decide, by decide, by decide +kernel,
    by decide +kernel, by decide +kernel, by decide +kernel, by decide +kernel⟩

end RuleBook

end TopicLint
