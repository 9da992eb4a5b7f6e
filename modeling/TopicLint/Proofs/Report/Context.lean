import TopicLint.Proofs.Text.Words
import TopicLint.Report.Diagnostic

/-! What is said of an element so that people can find it: the first words of a text that describes it, or else
what it links to, or nothing. -/

namespace TopicLint.Context

/-- The first of some texts that is not blank. -/
def First (texts : List String) (text : String) : Prop :=
  ∃ before after, texts = before ++ text :: after ∧ (∀ earlier ∈ before, Text.AllBlank earlier) ∧
    ¬Text.AllBlank text

/-- A beginning of the words of a text, with single spaces between them. It ends with the text unless the eighth
word or the fiftieth character comes first. -/
structure IsExcerpt (text excerpt : String) : Prop where
  before : excerpt.toList <+: (" ".intercalate (Text.words text)).toList
  length_eq : excerpt.length = min 50 (" ".intercalate ((Text.words text).take 8)).length
  words_le : (Text.words excerpt).length ≤ 8
  length_le : excerpt.length ≤ 50
  starts : ∃ c rest, excerpt.toList = c :: rest ∧ Text.isBlank c = false
  space : ∀ c ∈ excerpt.toList, Text.isBlank c = true → c = ' '

/-- The texts that describe an element, in order of preference. -/
def texts (doc : Document) (node : Node) : List String :=
  [node.value doc, node.attr doc "alt", node.attr doc "title", node.attr doc "Title", node.attr doc "Comment"]

/-- What an element links to, in order of preference. -/
def links (doc : Document) (node : Node) : List String :=
  [node.attr doc "href", node.attr doc "src", node.attr doc "Link"]

/-- What is said of the element of a node: when there is nothing to say, when there is an excerpt and of which
text, and when and to what there is a reference. -/
structure Faithful (doc : Document) (node : Node) : Prop where
  none_iff : describe doc node = none ↔
    node = .nothing ∨ ∀ text ∈ texts doc node ++ links doc node, Text.AllBlank text
  exists_excerpt_iff : (∃ excerpt, describe doc node = some (.excerpt excerpt)) ↔
    ∃ text ∈ texts doc node, ¬Text.AllBlank text
  excerpt_iff : ∀ excerpt, describe doc node = some (.excerpt excerpt) ↔
    ∃ text, First (texts doc node) text ∧ IsExcerpt text excerpt
  reference_iff : ∀ target, describe doc node = some (.reference target) ↔
    (∀ text ∈ texts doc node, Text.AllBlank text) ∧
      ∃ link, First (links doc node) link ∧ Text.IsTrimmed link target

section First

variable {list : List String} {text trimmed : String}

theorem firstText_eq (list : List String) :
    firstText list = (list.find? fun text => decide (¬Text.AllBlank text)).map Text.trim := by
  have filled : ((fun text => ! text.isEmpty) ∘ Text.trim) = fun text => decide (¬Text.AllBlank text) := by
    funext text
    rw [Bool.eq_iff_iff, Function.comp_apply, decide_eq_true_iff, Bool.not_eq_true', ← Bool.not_eq_true,
      Text.isEmpty_trim_iff, Text.AllBlank]
  rw [firstText, List.find?_map, filled]

theorem firstText_eq_none_iff : firstText list = none ↔ ∀ text ∈ list, Text.AllBlank text := by
  simp only [firstText_eq, Option.map_eq_none_iff, List.find?_eq_none, decide_eq_true_iff, not_not]

theorem firstText_eq_some_iff : firstText list = some trimmed ↔
    ∃ text, First list text ∧ trimmed = Text.trim text := by
  simp only [firstText_eq, Option.map_eq_some_iff, List.find?_eq_some_iff_append, decide_not,
    Bool.not_not, Bool.not_eq_true', decide_eq_false_iff_not, decide_eq_true_iff, First]
  constructor
  · rintro ⟨text, ⟨worded, before, after, parted, blank⟩, rfl⟩
    exact ⟨text, ⟨before, after, parted, blank, worded⟩, rfl⟩
  · rintro ⟨text, ⟨before, after, parted, blank, worded⟩, rfl⟩
    exact ⟨text, ⟨worded, before, after, parted, blank⟩, rfl⟩

theorem exists_first_iff : (∃ text, First list text) ↔ ∃ text ∈ list, ¬Text.AllBlank text := by
  constructor
  · rintro ⟨text, before, after, rfl, -, worded⟩
    exact ⟨text, List.mem_append_right _ List.mem_cons_self, worded⟩
  · rintro ⟨text, member, worded⟩
    cases first : firstText list with
    | none => exact absurd (firstText_eq_none_iff.1 first text member) worded
    | some trimmed =>
      obtain ⟨chosen, isFirst, -⟩ := firstText_eq_some_iff.1 first
      exact ⟨chosen, isFirst⟩

theorem First.not_allBlank (first : First list text) : ¬Text.AllBlank text := by
  obtain ⟨before, after, -, -, worded⟩ := first
  exact worded

end First

section Excerpt

variable {text excerpt : String}

/-- The first words of a text are an excerpt. -/
theorem isExcerpt_firstWords (worded : ¬Text.AllBlank text) :
    IsExcerpt text (firstWords (Text.trim text)) := by
  have kept : (Text.words text).take 8 ≠ [] := by simpa using Text.words_ne_nil worded
  have all : ∀ word ∈ (Text.words text).take 8, Text.IsWord word :=
    fun word member => Text.isWord_of_mem_words (List.mem_of_mem_take member)
  have shown : (firstWords (Text.trim text)).toList =
      (" ".intercalate ((Text.words text).take 8)).toList.take 50 := by
    rw [firstWords, String.toList_ofList, Text.words_trim, wordLimit, charLimit]
  have cut : (firstWords (Text.trim text)).toList <+:
      (" ".intercalate ((Text.words text).take 8)).toList := by
    rw [shown]
    exact List.take_prefix 50 _
  have length : (firstWords (Text.trim text)).length =
      min 50 (" ".intercalate ((Text.words text).take 8)).length := by
    rw [← String.length_toList, shown, List.length_take, String.length_toList]
  refine ⟨?_, length, ?_, ?_, ?_, ?_⟩
  · refine cut.trans ?_
    rw [Text.toList_joined, Text.toList_joined]
    exact Text.intercalate_before ((List.take_prefix 8 _).map _)
  · exact (Text.length_words_le kept all cut).trans (List.length_take_le _ _)
  · exact length.trans_le (Nat.min_le_left _ _)
  · obtain ⟨c, rest, same, plain⟩ := Text.head_joined kept all
    exact ⟨c, rest.take 49, by rw [shown, same, List.take_succ_cons], plain⟩
  · exact fun c member => Text.blank_joined all (cut.subset member)

example : firstWords " The quick\tbrown fox\n jumps over the lazy sleeping dog" =
    "The quick brown fox jumps over the lazy" := by decide +kernel

/-- A text has one excerpt. -/
theorem IsExcerpt.unique {other : String} (isExcerpt : IsExcerpt text excerpt)
    (isExcerpt' : IsExcerpt text other) : excerpt = other := by
  apply String.toList_inj.1
  have long : excerpt.toList.length = other.toList.length := by
    rw [String.length_toList, String.length_toList, isExcerpt.length_eq, isExcerpt'.length_eq]
  exact (List.prefix_of_prefix_length_le isExcerpt.before isExcerpt'.before long.le).eq_of_length long

end Excerpt

section Describe

variable {doc : Document} {node : Node} {excerpt target : String}

theorem texts_eq : texts doc node = node.value doc :: describing.map fun name => node.attr doc name := rfl

theorem links_eq : links doc node = linking.map fun name => node.attr doc name := rfl

/-- Nothing has no text to describe it and no links. -/
theorem allBlank_nothing : ∀ text ∈ texts doc .nothing ++ links doc .nothing, Text.AllBlank text := by
  intro text member
  have empty : text = "" := by
    simpa [texts, links, Node.value, Node.attr, Node.element?] using member
  rw [empty]
  exact List.forall_mem_nil _

theorem describe_of_some {trimmed : String} (first : firstText (texts doc node) = some trimmed) :
    describe doc node = some (.excerpt (firstWords trimmed)) := by
  cases node with
  | nothing =>
    rw [firstText_eq_none_iff.2 (List.forall_mem_append.1 allBlank_nothing).1] at first
    cases first
  | found id place =>
    rw [texts_eq] at first
    rw [describe, first]

theorem describe_of_none (blank : firstText (texts doc node) = none) :
    describe doc node = (firstText (links doc node)).map .reference := by
  cases node with
  | nothing =>
    rw [firstText_eq_none_iff.2 (List.forall_mem_append.1 allBlank_nothing).2]
    rfl
  | found id place =>
    rw [texts_eq] at blank
    rw [describe, blank, links_eq]

theorem describe_eq_excerpt_iff : describe doc node = some (.excerpt excerpt) ↔
    ∃ text, First (texts doc node) text ∧ IsExcerpt text excerpt := by
  constructor
  · intro said
    cases first : firstText (texts doc node) with
    | none =>
      rw [describe_of_none first] at said
      obtain ⟨_, -, impossible⟩ := Option.map_eq_some_iff.1 said
      cases impossible
    | some trimmed =>
      obtain ⟨text, isFirst, rfl⟩ := firstText_eq_some_iff.1 first
      rw [describe_of_some first] at said
      refine ⟨text, isFirst, ?_⟩
      rw [← Context.excerpt.inj (Option.some.inj said)]
      exact isExcerpt_firstWords isFirst.not_allBlank
  · rintro ⟨text, isFirst, isExcerpt⟩
    rw [describe_of_some (firstText_eq_some_iff.2 ⟨text, isFirst, rfl⟩),
      isExcerpt.unique (isExcerpt_firstWords isFirst.not_allBlank)]

theorem describe_eq_reference_iff : describe doc node = some (.reference target) ↔
    (∀ text ∈ texts doc node, Text.AllBlank text) ∧
      ∃ link, First (links doc node) link ∧ Text.IsTrimmed link target := by
  simp only [Text.isTrimmed_iff]
  rw [← firstText_eq_none_iff, ← firstText_eq_some_iff]
  cases first : firstText (texts doc node) with
  | none => simp [describe_of_none first]
  | some trimmed => simp [describe_of_some first]

theorem describe_eq_none_iff : describe doc node = none ↔
    ∀ text ∈ texts doc node ++ links doc node, Text.AllBlank text := by
  rw [List.forall_mem_append, ← firstText_eq_none_iff, ← firstText_eq_none_iff]
  cases first : firstText (texts doc node) with
  | none => simp [describe_of_none first]
  | some trimmed => simp [describe_of_some first]

/-- What is said of an element is bounded and keeps to what the element says of itself. -/
theorem faithful (doc : Document) (node : Node) : Faithful doc node where
  none_iff := by
    rw [describe_eq_none_iff, iff_or_self]
    rintro rfl
    exact allBlank_nothing
  exists_excerpt_iff := by
    rw [← exists_first_iff]
    constructor
    · rintro ⟨excerpt, said⟩
      obtain ⟨text, isFirst, -⟩ := describe_eq_excerpt_iff.1 said
      exact ⟨text, isFirst⟩
    · rintro ⟨text, isFirst⟩
      exact ⟨_, describe_eq_excerpt_iff.2 ⟨text, isFirst, isExcerpt_firstWords isFirst.not_allBlank⟩⟩
  excerpt_iff _ := describe_eq_excerpt_iff
  reference_iff _ := describe_eq_reference_iff

end Describe

end TopicLint.Context
