import TopicLint.Proofs.Rule.Lexeme
import TopicLint.Proofs.Rule.Plain

/-! Scanning. At each point of a text one lexeme can be chosen: of the first class that fits there,
and as long as the class allows, but for quotes, which are as short as they can be. The choices
determine how a text is cut, and the tokens of lines are cut in this way, although each line is
looked at alone. -/

namespace TopicLint.Rule

/-- What the alternative for a class matches. A quote may go on to any double quote of its line. -/
inductive Kind.Matches : Kind → List Char → Prop where
  | allowed {kind : Kind} {text : List Char} (allows : kind.Allows text) : Matches kind text
  | quote {body : List Char} (within : '\n' ∉ body) : Matches .quote ('"' :: (body ++ ['"']))

/-- A text as one of a class. -/
structure Lexeme where
  kind : Kind
  text : List Char
  deriving DecidableEq, Repr

def Token.lexeme (token : Token) : Lexeme := ⟨token.kind, token.value.toList⟩

/-- A lexeme that can be cut off the front of a text. A header needs the start of a line. -/
structure Fits (atLineStart : Bool) (text : List Char) (lexeme : Lexeme) : Prop where
  front : lexeme.text <+: text
  matched : lexeme.kind.Matches lexeme.text
  opening : lexeme.kind = .header → atLineStart = true

/-- Whether a class takes one length rather than another one. -/
def Kind.Prefers : Kind → Nat → Nat → Prop
  | .quote, length, rival => length ≤ rival
  | _, length, rival => rival ≤ length

/-- The lexeme to cut off the front of a text. -/
structure Chosen (atLineStart : Bool) (text : List Char) (lexeme : Lexeme) : Prop where
  fits : Fits atLineStart text lexeme
  first : ∀ kind ∈ Kind.precedence.takeWhile (· != lexeme.kind), ∀ other,
    ¬Fits atLineStart text ⟨kind, other⟩
  preferred : ∀ other, Fits atLineStart text ⟨lexeme.kind, other⟩ →
    lexeme.kind.Prefers lexeme.text.length other.length

section Runs

variable {good : Char → Bool} {front rest : List Char}

theorem length_le_runLength (all : ∀ c ∈ front, good c = true) :
    front.length ≤ runLength good (front ++ rest) := by
  rw [runLength, List.takeWhile_append_of_pos all, List.length_append]
  exact Nat.le_add_right _ _

theorem runLength_eq (all : ∀ c ∈ front, good c = true) {mark : Char} (ends : good mark = false) :
    runLength good (front ++ mark :: rest) = front.length := by
  rw [runLength, List.takeWhile_append_of_pos all, List.takeWhile_cons_of_neg (by simp [ends]),
    List.append_nil]

end Runs

section Choices

variable {atLineStart : Bool} {text : List Char} {kind : Kind}

/-- What a class takes at the start of a text fits there. -/
theorem fits_extent (positive : 0 < kind.extent atLineStart text) :
    Fits atLineStart text ⟨kind, text.take (kind.extent atLineStart text)⟩ where
  front := List.take_prefix _ _
  matched := .allowed (allows_extent positive)
  opening := by
    rintro rfl
    cases atLineStart with
    | true => rfl
    | false => exact absurd positive (Nat.lt_irrefl 0)

/-- The part of a quote up to the first double quote inside. -/
theorem exists_shortest {body : List Char} (within : '\n' ∉ body) (more : List Char) :
    ∃ inner rest, body ++ '"' :: more = inner ++ '"' :: rest ∧ inner.length ≤ body.length ∧
      ∀ c ∈ inner, (c != '"' && c != '\n') = true := by
  obtain ⟨inner, rest, split, free⟩ :=
    List.eq_append_cons_of_mem (List.mem_append_right body (List.mem_singleton_self '"'))
  have bound : inner.length ≤ body.length := by
    have same := congrArg List.length split
    simp only [List.length_append, List.length_cons, List.length_nil] at same
    omega
  refine ⟨inner, rest ++ more, ?_, bound, fun c member => ?_⟩
  · rw [← List.singleton_append, ← List.append_assoc, split, List.append_assoc, List.cons_append]
  · have inside : c ∈ body := by
      have start : inner <+: body ++ ['"'] := ⟨'"' :: rest, split.symm⟩
      obtain ⟨more, rfl⟩ := List.prefix_of_prefix_length_le start (List.prefix_append _ _) bound
      exact List.mem_append_left _ member
    have apart : c ≠ '"' := fun same => free (same ▸ member)
    have apart' : c ≠ '\n' := fun same => within (same ▸ inside)
    simp [apart, apart']

theorem extent_quote {body : List Char} (within : '\n' ∉ body) (more : List Char) :
    0 < Kind.quote.extent atLineStart ('"' :: (body ++ ['"']) ++ more) ∧
      Kind.quote.extent atLineStart ('"' :: (body ++ ['"']) ++ more) ≤ body.length + 2 := by
  obtain ⟨inner, rest, split, bound, good⟩ := exists_shortest within more
  have taken : Kind.quote.extent atLineStart ('"' :: (inner ++ '"' :: rest)) = inner.length + 2 := by
    rw [Kind.extent, runLength_eq good (by decide), List.drop_left]
    rfl
  rw [List.cons_append, List.append_assoc, List.singleton_append, split, taken]
  exact ⟨Nat.succ_pos _, Nat.add_le_add_right bound 2⟩

theorem extent_header {letters : List Char} (filled : letters ≠ [])
    (good : ∀ c ∈ letters, isLetter c = true) (more : List Char) :
    Kind.header.extent true (letters ++ ':' :: more) = letters.length + 1 := by
  have positive := List.length_pos_iff.2 filled
  rw [Kind.extent, runLength_eq good (by decide), List.drop_left]
  simp [positive]

/-- Where a lexeme fits, its class takes something, and nothing that it likes less. -/
theorem extent_of_fits {lexeme : List Char} (fits : Fits atLineStart text ⟨kind, lexeme⟩) :
    0 < kind.extent atLineStart text ∧
      kind.Prefers (kind.extent atLineStart text) lexeme.length := by
  obtain ⟨⟨more, rfl⟩, matched, opening⟩ := fits
  dsimp only at matched opening
  have quoted {body : List Char} (within : '\n' ∉ body) :
      0 < Kind.quote.extent atLineStart ('"' :: (body ++ ['"']) ++ more) ∧
        Kind.quote.Prefers (Kind.quote.extent atLineStart ('"' :: (body ++ ['"']) ++ more))
          ('"' :: (body ++ ['"'])).length := by
    obtain ⟨positive, bound⟩ := @extent_quote atLineStart _ within more
    exact ⟨positive, Nat.le_trans bound (Nat.le_of_eq (by simp))⟩
  cases matched with
  | quote within => exact quoted within
  | allowed allows =>
    cases allows with
    | header filled good =>
      rw [opening rfl, List.append_assoc, List.singleton_append, extent_header filled good]
      exact ⟨Nat.succ_pos _, Nat.le_of_eq (List.length_append ..)⟩
    | wildcard => exact ⟨Nat.one_pos, Nat.le_refl 1⟩
    | name start good =>
      rw [List.cons_append, Kind.extent, if_pos start, Nat.add_comm]
      exact ⟨Nat.succ_pos _, Nat.succ_le_succ (length_le_runLength good)⟩
    | number filled good =>
      have bound := @length_le_runLength _ _ more good
      exact ⟨Nat.lt_of_lt_of_le (List.length_pos_iff.2 filled) bound, bound⟩
    | quote good => exact quoted fun member => (good _ member).2 rfl
    | newline => exact ⟨Nat.one_pos, Nat.le_refl 1⟩
    | whitespace filled good =>
      have bound : lexeme.length ≤ Kind.whitespace.extent atLineStart (lexeme ++ more) :=
        length_le_runLength fun c member => by simpa using good c member
      exact ⟨Nat.lt_of_lt_of_le (List.length_pos_iff.2 filled) bound, bound⟩
    | other good =>
      rw [List.singleton_append, Kind.extent, if_neg good]
      exact ⟨Nat.one_pos, Nat.le_refl 1⟩

theorem runLength_le_length (good : Char → Bool) (text : List Char) :
    runLength good text ≤ text.length :=
  (List.takeWhile_sublist good).length_le

theorem runLength_lt_length {good : Char → Bool} {mark : Char}
    (ended : (text.drop (runLength good text)).head? = some mark) :
    runLength good text < text.length := by
  rw [List.head?_drop] at ended
  exact (List.getElem?_eq_some_iff.1 ended).1

/-- No class takes more than there is. -/
theorem extent_le_length (atLineStart : Bool) (kind : Kind) (text : List Char) :
    kind.extent atLineStart text ≤ text.length := by
  fun_cases Kind.extent atLineStart kind text with
  | case1 text letters found =>
    simp only [Bool.and_eq_true, beq_iff_eq] at found
    exact runLength_lt_length found.2
  | case4 c rest =>
    rw [Nat.add_comm]
    exact Nat.succ_le_succ (runLength_le_length _ rest)
  | case6 text => exact runLength_le_length _ text
  | case7 rest body ended => exact Nat.succ_le_succ (runLength_lt_length (beq_iff_eq.1 ended))
  | case10 text => exact runLength_le_length _ text
  | case3 | case9 | case12 => exact Nat.succ_le_succ (Nat.zero_le _)
  | case2 | case5 | case8 | case11 | case13 => exact Nat.zero_le _

theorem find?_precedence (c : Char) (rest : List Char) :
    Kind.precedence.find? (fun kind => decide (0 < kind.extent atLineStart (c :: rest))) =
      some (Kind.first atLineStart (c :: rest)) := by
  have positive := extent_first_pos atLineStart c rest
  unfold Kind.first at positive ⊢
  cases found : Kind.precedence.find? fun kind => decide (0 < kind.extent atLineStart (c :: rest)) with
  | some kind => rfl
  | none =>
    rw [found] at positive
    have refused := List.find?_eq_none.1 found .other (by decide)
    exact absurd (decide_eq_true positive) refused

theorem eq_false_of_mem_takeWhile {α : Type} [BEq α] [LawfulBEq α] {p : α → Bool} {elements : List α}
    {a b : α} (found : elements.find? p = some a) (before : b ∈ elements.takeWhile (· != a)) :
    p b = false := by
  induction elements with
  | nil => cases found
  | cons x rest ih =>
    cases good : p x with
    | true =>
      rw [List.find?_cons_of_pos good] at found
      cases found
      rw [List.takeWhile_cons_of_neg (by simp)] at before
      cases before
    | false =>
      rw [List.find?_cons_of_neg (by simp [good])] at found
      rw [List.takeWhile_cons] at before
      split at before
      · rcases List.mem_cons.1 before with rfl | later
        · exact good
        · exact ih found later
      · cases before

/-- The lexeme that a scan cuts off is the one to choose. -/
theorem chosen_first (atLineStart : Bool) (c : Char) (rest : List Char) :
    Chosen atLineStart (c :: rest) ⟨Kind.first atLineStart (c :: rest),
      (c :: rest).take ((Kind.first atLineStart (c :: rest)).extent atLineStart (c :: rest))⟩ where
  fits := fits_extent (extent_first_pos atLineStart c rest)
  first kind earlier other fits := by
    have refused := eq_false_of_mem_takeWhile (find?_precedence c rest) earlier
    exact absurd (extent_of_fits fits).1 (of_decide_eq_false refused)
  preferred other fits := by
    have preferred := (extent_of_fits fits).2
    have bound := fits.front.length_le
    dsimp only at bound ⊢
    generalize Kind.first atLineStart (c :: rest) = kind at preferred ⊢
    rw [List.length_take]
    cases kind with
    | quote => exact Nat.le_trans (Nat.min_le_left _ _) preferred
    | _ => exact Nat.le_min.2 ⟨preferred, bound⟩

theorem mem_precedence_of_allows (allows : kind.Allows text) : kind ∈ Kind.precedence := by
  cases allows <;> decide

theorem mem_precedence_of_matches (matched : kind.Matches text) : kind ∈ Kind.precedence := by
  cases matched with
  | allowed allows => exact mem_precedence_of_allows allows
  | quote => decide

theorem precedence_total : ∀ one ∈ Kind.precedence, ∀ two ∈ Kind.precedence, one ≠ two →
    one ∈ Kind.precedence.takeWhile (· != two) ∨ two ∈ Kind.precedence.takeWhile (· != one) := by
  decide

theorem Kind.Prefers.antisymm {one two : Nat} (first : kind.Prefers one two)
    (second : kind.Prefers two one) : one = two := by
  cases kind with
  | quote => exact Nat.le_antisymm first second
  | _ => exact Nat.le_antisymm second first

/-- At most one lexeme can be chosen. -/
theorem Chosen.unique {one two : Lexeme} (first : Chosen atLineStart text one)
    (second : Chosen atLineStart text two) : one = two := by
  obtain ⟨kind, front⟩ := one
  obtain ⟨kind', front'⟩ := two
  have same : kind = kind' := by
    refine Decidable.byContradiction fun different => ?_
    have known := mem_precedence_of_matches first.fits.matched
    have known' := mem_precedence_of_matches second.fits.matched
    rcases precedence_total kind known kind' known' different with earlier | later
    · exact second.first kind earlier front first.fits
    · exact first.first kind' later front' second.fits
  subst same
  have length := (first.preferred front' second.fits).antisymm (second.preferred front first.fits)
  have start := List.prefix_iff_eq_take.1 first.fits.front
  have start' := List.prefix_iff_eq_take.1 second.fits.front
  dsimp only at length start start'
  rw [start, start', length]

end Choices

/-- How a text is cut up to a rest. Behind a line break a line starts. -/
inductive Scans : Bool → List Char → List Lexeme → Bool → List Char → Prop where
  | done {start : Bool} {rest : List Char} : Scans start rest [] start rest
  | next {start stop : Bool} {kind : Kind} {front more rest : List Char} {lexemes : List Lexeme}
      (chosen : Chosen start (front ++ more) ⟨kind, front⟩)
      (later : Scans (kind == .newline) more lexemes stop rest) :
      Scans start (front ++ more) (⟨kind, front⟩ :: lexemes) stop rest

section Cuts

variable {start middle stop : Bool} {text rest : List Char}

theorem Kind.Matches.ne_nil {kind : Kind} (matched : kind.Matches text) : text ≠ [] := by
  cases matched with
  | quote => exact List.cons_ne_nil _ _
  | allowed allows =>
    cases allows with
    | number filled | whitespace filled => exact filled
    | header => exact List.append_ne_nil_of_right_ne_nil _ (List.cons_ne_nil _ _)
    | wildcard | name | quote | newline | other => exact List.cons_ne_nil _ _

theorem Scans.append {more : List Char} {lexemes others : List Lexeme}
    (first : Scans start text lexemes middle more) (second : Scans middle more others stop rest) :
    Scans start text (lexemes ++ others) stop rest := by
  induction first with
  | done => exact second
  | next chosen later ih => exact .next chosen (ih second)

/-- A text can be cut in one way only. -/
theorem Scans.unique {stop' : Bool} {one two : List Lexeme} (first : Scans start text one stop [])
    (second : Scans start text two stop' []) : one = two := by
  generalize ended : ([] : List Char) = rest at first
  induction first generalizing two with
  | done =>
    subst ended
    generalize nothing : ([] : List Char) = text at second
    cases second with
    | done => rfl
    | next chosen =>
      exact absurd (List.append_eq_nil_iff.1 nothing.symm).1 chosen.fits.matched.ne_nil
  | @next _ _ kind front more _ lexemes chosen later ih =>
    generalize same : front ++ more = text at second
    cases second with
    | done => exact absurd (List.append_eq_nil_iff.1 same).1 chosen.fits.matched.ne_nil
    | next chosen' later' =>
      rw [same] at chosen
      obtain ⟨rfl, rfl⟩ := Lexeme.mk.inj (chosen.unique chosen')
      obtain rfl := List.append_cancel_left same
      rw [ih later' ended]

end Cuts

/-- A piece of a line up to its end, in front of the lines behind it. -/
def EndsLine (text rest : List Char) : Prop :=
  (∃ body, text = body ++ ['\n'] ∧ '\n' ∉ body) ∨ rest = [] ∧ '\n' ∉ text

section Lines

variable {start : Bool} {text rest : List Char} {lexeme : Lexeme}

/-- Only the lexeme of a line break holds one. -/
theorem Kind.Matches.eq_newline {kind : Kind} (matched : kind.Matches text) (broken : '\n' ∈ text) :
    kind = .newline ∧ text = ['\n'] := by
  cases matched with
  | quote within => simp [within] at broken
  | allowed allows =>
    cases allows with
    | newline => exact ⟨rfl, rfl⟩
    | header _ good =>
      rcases List.mem_append.1 broken with inside | last
      · exact absurd (good _ inside) (by decide)
      · exact absurd last (by decide)
    | wildcard => exact absurd broken (by decide)
    | name start good =>
      rcases List.mem_cons.1 broken with rfl | inside
      · exact absurd start (by decide)
      · exact absurd (good _ inside) (by decide)
    | number _ good => exact absurd (good _ broken) (by decide)
    | @quote body good =>
      have inside : '\n' ∈ body := by simpa using broken
      exact absurd rfl (good _ inside).2
    | whitespace _ good => exact absurd (good _ broken) (by decide)
    | other good => exact absurd (List.mem_singleton.1 broken).symm good

theorem Kind.Matches.eq_newline_iff {kind : Kind} (matched : kind.Matches text) :
    kind = .newline ↔ '\n' ∈ text := by
  constructor
  · rintro rfl
    cases matched with
    | allowed allows =>
      cases allows with
      | newline => exact List.mem_cons_self
  · exact fun broken => (matched.eq_newline broken).1

/-- What fits at a point of a line depends on the line alone. -/
theorem fits_iff_of_endsLine (ends : EndsLine text rest) :
    Fits start (text ++ rest) lexeme ↔ Fits start text lexeme := by
  constructor
  · intro fits
    refine ⟨?_, fits.matched, fits.opening⟩
    obtain ⟨body, rfl, unbroken⟩ | ⟨rfl, -⟩ := ends
    · rcases List.prefix_or_prefix_of_prefix fits.front (List.prefix_append _ rest) with inside | beyond
      · exact inside
      -- A lexeme as long as the line holds its line break, so it is nothing else.
      · have single := (fits.matched.eq_newline (beyond.subset (by simp))).2
        rw [single] at beyond ⊢
        have whole := beyond.eq_of_length_le (by simp)
        exact ⟨[], (List.append_nil _).trans whole.symm⟩
    · exact List.append_nil text ▸ fits.front
  · intro fits
    exact ⟨fits.front.trans (List.prefix_append _ _), fits.matched, fits.opening⟩

theorem chosen_iff_of_endsLine (ends : EndsLine text rest) :
    Chosen start (text ++ rest) lexeme ↔ Chosen start text lexeme := by
  constructor
  · rintro ⟨fits, first, preferred⟩
    exact ⟨(fits_iff_of_endsLine ends).1 fits,
      fun kind earlier other fits => first kind earlier other ((fits_iff_of_endsLine ends).2 fits),
      fun other fits => preferred other ((fits_iff_of_endsLine ends).2 fits)⟩
  · rintro ⟨fits, first, preferred⟩
    exact ⟨(fits_iff_of_endsLine ends).2 fits,
      fun kind earlier other fits => first kind earlier other ((fits_iff_of_endsLine ends).1 fits),
      fun other fits => preferred other ((fits_iff_of_endsLine ends).1 fits)⟩

/-- A lexeme in front of more of its line is no line break, and what is behind it ends the line. -/
theorem EndsLine.behind {front more : List Char} (ends : EndsLine (front ++ more) rest)
    (filled : more ≠ []) : '\n' ∉ front ∧ EndsLine more rest := by
  obtain ⟨body, split, unbroken⟩ | ⟨rfl, unbroken⟩ := ends
  · rcases List.append_eq_append_iff.1 split with ⟨inside, rfl, rfl⟩ | ⟨beyond, rfl, last⟩
    · rw [List.mem_append, not_or] at unbroken
      exact ⟨unbroken.1, .inl ⟨inside, rfl, unbroken.2⟩⟩
    · obtain ⟨rfl, single⟩ | ⟨-, nothing⟩ := List.append_eq_singleton_iff.1 last.symm
      · rw [List.append_nil]
        exact ⟨unbroken, .inl ⟨[], single, List.not_mem_nil⟩⟩
      · exact absurd nothing filled
  · rw [List.mem_append, not_or] at unbroken
    exact ⟨unbroken.1, .inr ⟨rfl, unbroken.2⟩⟩

theorem scanLine_cons (line column : Nat) (c : Char) (more : List Char) :
    ∃ kind lexeme rest, c :: more = lexeme ++ rest ∧
      Chosen (column == 1) (lexeme ++ rest) ⟨kind, lexeme⟩ ∧
      scanLine line column (c :: more) =
        ⟨kind, String.ofList lexeme, line, column⟩ :: scanLine line (column + lexeme.length) rest := by
  have chosen := chosen_first (column == 1) c more
  have positive := extent_first_pos (column == 1) c more
  have bound := extent_le_length (column == 1) (Kind.first (column == 1) (c :: more)) (c :: more)
  rw [scanLine]
  generalize Kind.first (column == 1) (c :: more) = kind at chosen positive bound ⊢
  generalize kind.extent (column == 1) (c :: more) = length at chosen positive bound ⊢
  refine ⟨kind, (c :: more).take length, (c :: more).drop length, (List.take_append_drop ..).symm, ?_, ?_⟩
  · rwa [List.take_append_drop]
  · obtain ⟨length, rfl⟩ := Nat.exists_eq_succ_of_ne_zero (Nat.ne_of_gt positive)
    rw [List.length_take, Nat.min_eq_left bound]
    rfl

theorem Chosen.ne_nil (chosen : Chosen start text lexeme) : lexeme.text ≠ [] :=
  chosen.fits.matched.ne_nil

/-- The tokens of a line cut it, also in front of further lines; its line break starts a new line. -/
theorem scans_scanLine (line : Nat) {column : Nat} (filled : text ≠ []) (counted : 0 < column)
    (ends : EndsLine text rest) : ∃ stop, Scans (column == 1) (text ++ rest)
      ((scanLine line column text).map Token.lexeme) stop rest ∧ ('\n' ∈ text → stop = true) := by
  -- By induction on the length of what is left of the line.
  generalize size : text.length = n
  induction n using Nat.strongRecOn generalizing text column with
  | ind n ih =>
    obtain ⟨c, more, rfl⟩ := List.exists_cons_of_ne_nil filled
    obtain ⟨kind, front, left, split, chosen, scanned⟩ := scanLine_cons line column c more
    rw [scanned, List.map_cons]
    rw [split] at ends size ⊢
    have cut := (chosen_iff_of_endsLine ends).2 chosen
    have filled : 0 < front.length := List.length_pos_iff.2 chosen.ne_nil
    have first : Token.lexeme ⟨kind, String.ofList front, line, column⟩ = ⟨kind, front⟩ := by
      rw [Token.lexeme, String.toList_ofList]
    rw [first, List.append_assoc]
    rw [List.append_assoc] at cut
    rcases Decidable.em (left = []) with rfl | onward
    · rw [List.nil_append] at cut ⊢
      refine ⟨kind == .newline, ?_, fun broken => ?_⟩
      · rw [scanLine]
        exact .next cut .done
      · rw [List.append_nil] at broken
        exact beq_iff_eq.2 (chosen.fits.matched.eq_newline_iff.2 broken)
    · obtain ⟨unbroken, ends'⟩ := ends.behind onward
      have inside : (kind == .newline) = (column + front.length == 1) := by
        have apart : kind ≠ .newline := fun same => unbroken (chosen.fits.matched.eq_newline_iff.1 same)
        rw [beq_eq_false_iff_ne.2 apart, beq_eq_false_iff_ne.2 (by omega)]
      rw [List.length_append] at size
      obtain ⟨stop, later, starts⟩ := ih left.length (by omega) onward
        (Nat.add_pos_left counted front.length) ends' rfl
      refine ⟨stop, .next cut (inside ▸ later), fun broken => starts ?_⟩
      exact (List.mem_append.1 broken).resolve_left unbroken

/-- The tokens of the lines of a text cut it. -/
theorem scans_scanLines (line : Nat) {texts : List (List Char)} (divided : Divided texts) :
    ∃ stop, Scans true texts.flatten ((scanLines line texts).map Token.lexeme) stop [] := by
  induction divided generalizing line with
  | none => exact ⟨true, .done⟩
  | @last text filled unbroken =>
    obtain ⟨stop, scans, -⟩ :=
      scans_scanLine line filled Nat.one_pos (.inr ⟨rfl, unbroken⟩)
    refine ⟨stop, ?_⟩
    rw [List.flatten_singleton, scanLines, scanLines, List.append_nil]
    rwa [List.append_nil] at scans
  | @next body more unbroken later ih =>
    obtain ⟨stop, scans, starts⟩ := scans_scanLine line
      (List.concat_ne_nil _ _) Nat.one_pos (.inl ⟨body, rfl, unbroken⟩ : EndsLine _ more.flatten)
    obtain ⟨stop', others⟩ := ih (line + 1)
    rw [starts (List.mem_append_right _ List.mem_cons_self)] at scans
    refine ⟨stop', ?_⟩
    rw [List.flatten_cons, scanLines, List.map_append]
    exact scans.append others

end Lines

/-- The tokens of a source cut its text, and no other lexemes do. -/
theorem lexemes_bodyTokens_iff {source : String} {lexemes : List Lexeme} :
    (bodyTokens source).map Token.lexeme = lexemes ↔
      ∃ stop, Scans true (plainText source) lexemes stop [] := by
  obtain ⟨stop, scans⟩ := scans_scanLines 1 (divided_lines (plainText source))
  rw [flatten_lines, ← bodyTokens_eq] at scans
  constructor
  · rintro rfl
    exact ⟨stop, scans⟩
  · rintro ⟨stop', others⟩
    exact scans.unique others

end TopicLint.Rule
