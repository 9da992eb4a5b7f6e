import TopicLint.Proofs.Rule.Grammar
import TopicLint.Proofs.Rule.Lexeme

/-! The words of predicates. What a word asks for is found by cutting it at its first hyphen and by
looking up both sides, and only a name can be such a word. -/

namespace TopicLint.Rule

section Forms

theorem lookup_mem {α : Type} {key : String} {value : α} {entries : List (String × α)}
    (found : entries.lookup key = some value) : (key, value) ∈ entries := by
  induction entries with
  | nil => cases found
  | cons entry rest ih =>
    obtain ⟨here, stored⟩ := entry
    rw [List.lookup_cons] at found
    split at found
    next same =>
      cases found
      rw [eq_of_beq same]
      exact List.mem_cons_self
    next => exact List.mem_cons_of_mem _ (ih found)

/-- The arguments that a form takes, with the check they give. -/
inductive Fills : Form → List Token → Check → Prop where
  | tag {check : String → Check} {a : Token} {tag : String} (isTag : Grammar.IsTag a tag) :
      Fills (.tag check) [a] (check tag)
  | tagNumber {check : String → Nat → Check} {a b : Token} {tag : String} {n : Nat}
      (isTag : Grammar.IsTag a tag) (isNumber : Grammar.IsNumber b n) :
      Fills (.tagNumber check) [a, b] (check tag n)
  | tagQuote {check : String → String → Check} {a b : Token} {tag text : String}
      (isTag : Grammar.IsTag a tag) (isQuote : Grammar.IsQuote b text) :
      Fills (.tagQuote check) [a, b] (check tag text)
  | tagName {check : String → String → Check} {a b : Token} {tag name : String}
      (isTag : Grammar.IsTag a tag) (isName : Grammar.IsName b name) :
      Fills (.tagName check) [a, b] (check tag name)
  | tagNameQuote {check : String → String → String → Check} {a b c : Token} {tag name text : String}
      (isTag : Grammar.IsTag a tag) (isName : Grammar.IsName b name)
      (isQuote : Grammar.IsQuote c text) : Fills (.tagNameQuote check) [a, b, c] (check tag name text)
  | name {check : String → Check} {a : Token} {name : String} (isName : Grammar.IsName a name) :
      Fills (.name check) [a] (check name)

/-- The table of forms gives each word the checks that are named by it, with their arguments. -/
theorem isArguments_of_fills {word : String} {form : Form} {arguments : List Token} {check : Check}
    (found : Check.forms.lookup word = some form) (fills : Fills form arguments check) :
    check.keyword = word ∧ Grammar.IsArguments arguments check := by
  have member := lookup_mem found
  simp only [Check.forms, List.mem_cons, Prod.mk.injEq, List.not_mem_nil, or_false] at member
  rcases member with ⟨rfl, rfl⟩ | ⟨rfl, rfl⟩ | ⟨rfl, rfl⟩ | ⟨rfl, rfl⟩ | ⟨rfl, rfl⟩ | ⟨rfl, rfl⟩ |
    ⟨rfl, rfl⟩ | ⟨rfl, rfl⟩ | ⟨rfl, rfl⟩ | ⟨rfl, rfl⟩ | ⟨rfl, rfl⟩ | ⟨rfl, rfl⟩ | ⟨rfl, rfl⟩ |
    ⟨rfl, rfl⟩ | ⟨rfl, rfl⟩ | ⟨rfl, rfl⟩
  all_goals
    refine ⟨?_, ?_⟩
    · cases fills
      rfl
    · cases fills
      grind [Grammar.IsArguments]

theorem fills_of_isArguments {arguments : List Token} {check : Check}
    (given : Grammar.IsArguments arguments check) :
    ∃ form, Check.forms.lookup check.keyword = some form ∧ Fills form arguments check := by
  cases check with
  | present tag | style tag | empty tag | first tag | last tag | padding tag =>
    obtain ⟨a, rfl, isTag⟩ := given
    exact ⟨_, rfl, .tag isTag⟩
  | position tag place =>
    obtain ⟨a, b, rfl, isTag, isNumber⟩ := given
    exact ⟨_, rfl, .tagNumber isTag isNumber⟩
  | contains tag text | ownText tag text | ends tag text | begins tag text =>
    obtain ⟨a, b, rfl, isTag, isQuote⟩ := given
    exact ⟨_, rfl, .tagQuote isTag isQuote⟩
  | hasAttribute tag name =>
    obtain ⟨a, b, rfl, isTag, isName⟩ := given
    exact ⟨_, rfl, .tagName isTag isName⟩
  | attributeEquals tag name text | attributeContains tag name text
  | attributeEnds tag name text =>
    obtain ⟨a, b, c, rfl, isTag, isName, isQuote⟩ := given
    exact ⟨_, rfl, .tagNameQuote isTag isName isQuote⟩
  | namesVariable name =>
    obtain ⟨a, rfl, isName⟩ := given
    exact ⟨_, rfl, .name isName⟩

end Forms

section Views

theorem cutFirst_of_notMem {mark : Char} {before : List Char} (free : mark ∉ before)
    (after : List Char) : Text.cutFirst mark (before ++ mark :: after) = some (before, after) := by
  induction before with
  | nil => exact if_pos rfl
  | cons c rest ih =>
    rw [List.mem_cons, not_or] at free
    rw [List.cons_append, Text.cutFirst, if_neg (Ne.symm free.1), ih free.2]
    rfl

theorem cutFirst_eq_none {mark : Char} {text : List Char} (free : mark ∉ text) :
    Text.cutFirst mark text = none := by
  induction text with
  | nil => rfl
  | cons c rest ih =>
    rw [List.mem_cons, not_or] at free
    rw [Text.cutFirst, if_neg (Ne.symm free.1), ih free.2]
    rfl

theorem eq_of_cutFirst {mark : Char} {text before after : List Char}
    (cut : Text.cutFirst mark text = some (before, after)) : text = before ++ mark :: after := by
  induction text generalizing before with
  | nil => cases cut
  | cons c rest ih =>
    rw [Text.cutFirst] at cut
    split at cut
    next here =>
      cases cut
      rw [here]
      rfl
    next =>
      obtain ⟨⟨front, back⟩, inner, paired⟩ := Option.map_eq_some_iff.1 cut
      cases paired
      rw [ih inner]
      rfl

theorem viewAndCheck_hyphen {front : String} (free : '-' ∉ front.toList) (back : String) :
    viewAndCheck (front ++ "-" ++ back) = (front, back) := by
  have split : (front ++ "-" ++ back).toList = front.toList ++ '-' :: back.toList := by
    simp [String.toList_append]
  simp only [viewAndCheck, Text.cutFirst?, split, cutFirst_of_notMem free, Option.map_some,
    Option.getD_some, String.ofList_toList]

theorem viewAndCheck_bare {word : String} (free : '-' ∉ word.toList) :
    viewAndCheck word = (word, "") := by
  simp only [viewAndCheck, Text.cutFirst?, cutFirst_eq_none free, Option.map_none, Option.getD_none]

/-- A word is put together again from what is cut out of it. -/
theorem eq_of_viewAndCheck {word front back : String} (cut : viewAndCheck word = (front, back)) :
    word = front ++ "-" ++ back ∨ back = "" ∧ word = front := by
  unfold viewAndCheck Text.cutFirst? at cut
  cases found : Text.cutFirst '-' word.toList with
  | none =>
    rw [found] at cut
    cases cut
    exact .inr ⟨rfl, rfl⟩
  | some sides =>
    rw [found] at cut
    cases cut
    have whole := eq_of_cutFirst found
    refine .inl (String.toList_inj.1 ?_)
    simp [String.toList_append, whole]

theorem View.ofKeyword?_eq_some_iff {word : String} {view : View} :
    View.ofKeyword? word = some view ↔ view.keyword = word := by
  constructor
  · intro found
    exact eq_of_beq (List.find?_some found :)
  · rintro rfl
    exact View.ofKeyword?_keyword view

theorem View.hyphen_notMem_keyword (view : View) : '-' ∉ view.keyword.toList := by
  cases view <;> decide

/-- What a word names along a view is read off by cutting the word. -/
theorem namesCheck_iff {word : String} {view : View} {check : Check} :
    Grammar.NamesCheck word view check ↔
      View.ofKeyword? (viewAndCheck word).1 = some view ∧ (viewAndCheck word).2 = check.keyword := by
  rw [View.ofKeyword?_eq_some_iff]
  constructor
  · rintro (rfl | ⟨unnamed, rfl⟩)
    · rw [viewAndCheck_hyphen view.hyphen_notMem_keyword]
      exact ⟨rfl, rfl⟩
    · rw [viewAndCheck_bare view.hyphen_notMem_keyword]
      exact ⟨rfl, unnamed.symm⟩
  · rintro ⟨front, back⟩
    have whole := eq_of_viewAndCheck (Prod.ext front.symm back : viewAndCheck word = (_, check.keyword))
    exact whole

end Views

section Questions

/-- A word that asks something starts with a letter, goes on, and holds no colon. -/
theorem letters_of_asks {word : String} {arguments : List Token} {question : Question}
    (asks : Grammar.Asks word arguments question) :
    (∃ c d rest, word.toList = c :: d :: rest ∧ isLetter c = true) ∧ ':' ∉ word.toList := by
  cases asks with
  | condition | fail | language | snippet => exact ⟨⟨_, _, _, rfl, by decide⟩, by decide⟩
  | @along _ view check _ names =>
    have unmarked : ':' ∉ check.keyword.toList := by
      cases check <;> simp only [Check.keyword] <;> decide
    have lettered : (∃ c d rest, view.keyword.toList = c :: d :: rest ∧ isLetter c = true) ∧
        ':' ∉ view.keyword.toList := by
      cases view <;> exact ⟨⟨_, _, _, rfl, by decide⟩, by decide⟩
    obtain ⟨⟨c, d, rest, front, letter⟩, free⟩ := lettered
    obtain rfl | ⟨-, rfl⟩ := names
    · refine ⟨⟨c, d, rest ++ '-' :: check.keyword.toList, ?_, letter⟩, ?_⟩
      · simp [String.toList_append, front]
      · simp [String.toList_append, free, unmarked]
    · exact ⟨⟨c, d, rest, front, letter⟩, free⟩

/-- Only a name can have the text of a word that asks something. -/
theorem eq_name_of_asks {kind : Kind} {word : String} {arguments : List Token} {question : Question}
    (allowed : kind.Allows word.toList) (asks : Grammar.Asks word arguments question) :
    kind = .name := by
  obtain ⟨⟨c, d, rest, text, letter⟩, free⟩ := letters_of_asks asks
  rw [text] at free allowed
  generalize written : c :: d :: rest = characters at free allowed
  cases allowed with
  | name => rfl
  | header => exact absurd (List.mem_append_right _ List.mem_cons_self) free
  | wildcard | newline | other => cases written
  | number _ good =>
    subst written
    exact absurd (good c List.mem_cons_self) (isDigit_of_isLetter letter)
  | quote =>
    obtain ⟨rfl, -⟩ := List.cons.inj written
    exact absurd letter (by decide)
  | whitespace _ good =>
    subst written
    obtain rfl | rfl := good c List.mem_cons_self
    · exact absurd letter (by decide)
    · exact absurd letter (by decide)

/-- A word whose front is a view asks for a check along it, if it asks anything. -/
theorem along_of_asks {word : String} {view : View} {arguments : List Token} {question : Question}
    (viewed : View.ofKeyword? (viewAndCheck word).1 = some view)
    (asks : Grammar.Asks word arguments question) :
    ∃ check, question = .along view check ∧ (viewAndCheck word).2 = check.keyword ∧
      Grammar.IsArguments arguments check := by
  cases asks with
  | condition | fail | language | snippet =>
    exact absurd (viewed.symm.trans (by decide)) (Option.some_ne_none view)
  | along names given =>
    obtain ⟨sameView, sameCheck⟩ := namesCheck_iff.1 names
    rw [viewed] at sameView
    cases sameView
    exact ⟨_, rfl, sameCheck, given⟩

/-- Any other word asks something of the node itself, if it asks anything. -/
theorem asks_iff_of_none {word : String} {arguments : List Token} {question : Question}
    (unviewed : View.ofKeyword? (viewAndCheck word).1 = none) :
    Grammar.Asks word arguments question ↔
      (word = "condition" ∧ ∃ token name, arguments = [token] ∧ Grammar.IsName token name ∧
        question = .condition name) ∨
      (word = "fail" ∧ arguments = [] ∧ question = .fail) ∨
      (word = "language" ∧ ∃ token tag, arguments = [token] ∧ Grammar.IsName token tag ∧
        question = .language tag) ∨
      (word = "snippet" ∧ ∃ token source, arguments = [token] ∧ Grammar.IsQuote token source ∧
        question = .snippet source) := by
  constructor
  · intro asks
    cases asks with
    | condition named => exact .inl ⟨rfl, _, _, rfl, named, rfl⟩
    | fail => exact .inr (.inl ⟨rfl, rfl, rfl⟩)
    | language named => exact .inr (.inr (.inl ⟨rfl, _, _, rfl, named, rfl⟩))
    | snippet quoted => exact .inr (.inr (.inr ⟨rfl, _, _, rfl, quoted, rfl⟩))
    | along names given =>
      rw [(namesCheck_iff.1 names).1] at unviewed
      cases unviewed
  · rintro (⟨rfl, _, _, rfl, named, rfl⟩ | ⟨rfl, rfl, rfl⟩ | ⟨rfl, _, _, rfl, named, rfl⟩ |
      ⟨rfl, _, _, rfl, quoted, rfl⟩)
    · exact .condition named
    · exact .fail
    · exact .language named
    · exact .snippet quoted

end Questions

end TopicLint.Rule
