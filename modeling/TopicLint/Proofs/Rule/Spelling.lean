import TopicLint.Proofs.Rule.Scan
import TopicLint.Rule.Compile

/-! Spelling. Words between blanks are cut as they are written, each as one lexeme, whatever they
stand for; so a text put together from words by blanks and line breaks is cut into these words. -/

namespace TopicLint.Rule

/-- A text that starts with what ends a word, or is empty. -/
def Apart (rest : List Char) : Prop := ∀ c more, rest = c :: more → c = ' ' ∨ c = '\n'

/-- The classes of words. -/
def Kind.words : List Kind := [.wildcard, .name, .number, .quote]

/-- The characters that texts of a class start with. -/
def Kind.starts : Kind → Char → Bool
  | .header => isLetter
  | .wildcard => (· = '*')
  | .name => startsName
  | .number => Char.isDigit
  | .quote => (· = '"')
  | .newline => (· = '\n')
  | .whitespace => fun c => c = ' ' || c = '\t'
  | .other => (· ≠ '\n')
  | .finish => fun _ => false

section Words

variable {kind earlier : Kind} {c : Char} {text rest more : List Char}

theorem starts_of_matches (matched : kind.Matches (c :: rest)) : kind.starts c = true := by
  generalize written : c :: rest = text at matched
  cases matched with
  | quote => exact decide_eq_true (List.cons.inj written).1
  | allowed allows =>
    cases allows with
    | @header letters filled good =>
      obtain ⟨letter, letters, rfl⟩ := List.exists_cons_of_ne_nil filled
      obtain ⟨rfl, -⟩ := List.cons.inj written
      exact good _ List.mem_cons_self
    | name start => exact (List.cons.inj written).1 ▸ start
    | number _ good => exact good c (written ▸ List.mem_cons_self)
    | whitespace _ good => simpa [Kind.starts] using good c (written ▸ List.mem_cons_self)
    | other good => exact decide_eq_true ((List.cons.inj written).1 ▸ good)
    | wildcard | quote | newline => exact decide_eq_true (List.cons.inj written).1

theorem eq_of_mem_words (word : kind ∈ Kind.words) :
    kind = .wildcard ∨ kind = .name ∨ kind = .number ∨ kind = .quote := by
  simpa [Kind.words] using word

/-- No class before that of a word starts as the word does, but that headers start as names may. -/
theorem header_of_earlier (word : kind ∈ Kind.words) (start : kind.starts c = true)
    (before : earlier ∈ Kind.precedence.takeWhile (· != kind)) (same : earlier.starts c = true) :
    earlier = .header ∧ kind = .name := by
  obtain rfl | rfl | rfl | rfl := eq_of_mem_words word
  · obtain rfl : c = '*' := of_decide_eq_true start
    obtain rfl : earlier = .header := List.mem_singleton.1 before
    exact absurd same (by decide)
  · have listed : earlier ∈ [.header, .wildcard] := before
    simp only [List.mem_cons, List.not_mem_nil, or_false] at listed
    obtain rfl | rfl := listed
    · exact ⟨rfl, rfl⟩
    · obtain rfl : c = '*' := of_decide_eq_true same
      exact absurd start (by decide)
  · have listed : earlier ∈ [.header, .wildcard, .name] := before
    have unlettered : isLetter c ≠ true := fun letter => isDigit_of_isLetter letter start
    simp only [List.mem_cons, List.not_mem_nil, or_false] at listed
    obtain rfl | rfl | rfl := listed
    · exact absurd same unlettered
    · obtain rfl : c = '*' := of_decide_eq_true same
      exact absurd start (by decide)
    · rcases Bool.or_eq_true_iff.1 same with letter | dot
      · exact absurd letter unlettered
      · obtain rfl : c = '.' := of_decide_eq_true dot
        exact absurd start (by decide)
  · obtain rfl : c = '"' := of_decide_eq_true start
    have listed : earlier ∈ [.header, .wildcard, .name, .number] := before
    simp only [List.mem_cons, List.not_mem_nil, or_false] at listed
    obtain rfl | rfl | rfl | rfl := listed <;> exact absurd same (by decide)

theorem Apart.cases (apart : Apart rest) :
    rest = [] ∨ ∃ c more, rest = c :: more ∧ (c = ' ' ∨ c = '\n') := by
  cases rest with
  | nil => exact .inl rfl
  | cons c more => exact .inr ⟨c, more, rfl, apart c more rfl⟩

theorem runLength_apart {good : Char → Bool} (all : ∀ c ∈ text, good c = true) (apart : Apart rest)
    (space : good ' ' = false) (break' : good '\n' = false) :
    runLength good (text ++ rest) = text.length := by
  obtain rfl | ⟨c, more, rfl, rfl | rfl⟩ := apart.cases
  · rw [runLength, List.takeWhile_append_of_pos all, List.takeWhile_nil, List.append_nil]
  · exact runLength_eq all space
  · exact runLength_eq all break'

/-- A word is as long as its class allows. -/
theorem extent_word (start : Bool) (word : kind ∈ Kind.words) (allows : kind.Allows text)
    (apart : Apart rest) : kind.extent start (text ++ rest) = text.length := by
  obtain rfl | rfl | rfl | rfl := eq_of_mem_words word
  · cases allows
    rfl
  · cases allows with
    | name starts good =>
      rw [List.cons_append, Kind.extent, if_pos starts, runLength_apart good apart (by decide) (by decide),
        Nat.add_comm]
      rfl
  · cases allows with
    | number _ good =>
      exact runLength_apart good apart (by decide) (by decide)
  · cases allows with
    | @quote body good =>
      have inner : ∀ c ∈ body, (c != '"' && c != '\n') = true := fun c member => by simp [good c member]
      rw [List.cons_append, List.append_assoc, List.singleton_append, Kind.extent,
        runLength_eq inner (by decide), List.drop_left]
      simp

/-- A header ends within a text, or in front of what is behind it. -/
theorem not_fits_header {start : Bool} (apart : Apart rest) (plain : start = true → ':' ∉ text)
    {written : List Char} : ¬Fits start (text ++ rest) ⟨.header, written⟩ := by
  intro fits
  have free := plain (fits.opening rfl)
  have matched : Kind.header.Matches written := fits.matched
  obtain ⟨more, split⟩ := fits.front
  cases matched with
  | allowed allows =>
    cases allows with
    | @header letters filled good =>
      rw [List.append_assoc, List.singleton_append] at split
      rcases List.append_eq_append_iff.1 split with ⟨inside, rfl, behind⟩ | ⟨inside, rfl, behind⟩
      · cases inside with
        | nil => obtain colon | colon := apart _ _ behind.symm <;> exact absurd colon (by decide)
        | cons c inside =>
          obtain ⟨rfl, -⟩ := List.cons.inj behind
          exact free (List.mem_append_right _ List.mem_cons_self)
      · cases inside with
        | nil => obtain colon | colon := apart _ _ behind <;> exact absurd colon (by decide)
        | cons c inside =>
          have letter := good c (List.mem_append_right _ List.mem_cons_self)
          obtain rfl | rfl := apart _ _ behind <;> exact absurd letter (by decide)

theorem prefers_of_extent {start : Bool} (taken : kind.extent start rest = text.length) :
    ∀ other, Fits start rest ⟨kind, other⟩ → kind.Prefers text.length other.length :=
  fun _ fits => taken ▸ (extent_of_fits fits).2

theorem chosen_word {start : Bool} (word : kind ∈ Kind.words) (allows : kind.Allows text)
    (apart : Apart rest) (plain : start = true → ':' ∉ text) :
    Chosen start (text ++ rest) ⟨kind, text⟩ where
  fits := by
    refine ⟨List.prefix_append _ _, .allowed allows, fun titled => ?_⟩
    dsimp only at titled
    rw [titled] at word
    exact absurd word (by decide)
  first earlier before written fits := by
    -- Whatever fits here starts with the first character of the word.
    obtain ⟨c, inside, rfl⟩ := List.exists_cons_of_ne_nil (Kind.Matches.allowed allows).ne_nil
    obtain ⟨d, outside, rfl⟩ := List.exists_cons_of_ne_nil fits.matched.ne_nil
    obtain ⟨more, split⟩ := fits.front
    obtain ⟨rfl, -⟩ := List.cons.inj split
    obtain ⟨rfl, -⟩ := header_of_earlier word (starts_of_matches (.allowed allows)) before
      (starts_of_matches fits.matched)
    exact not_fits_header apart plain fits
  preferred := prefers_of_extent (extent_word start word allows apart)

end Words

section Gaps

variable {start : Bool} {more rest : List Char}

/-- Where no header can start, a blank or a line break is of the first class that starts with it. -/
theorem not_fits_of_starts {kind : Kind} {c : Char} {written : List Char}
    (apart : kind.starts c = false) : ¬Fits start (c :: more) ⟨kind, written⟩ := by
  intro fits
  obtain ⟨d, inside, rfl⟩ := List.exists_cons_of_ne_nil fits.matched.ne_nil
  obtain ⟨behind, split⟩ := fits.front
  obtain ⟨rfl, -⟩ := List.cons.inj split
  have starts := starts_of_matches fits.matched
  dsimp only at starts
  rw [apart] at starts
  cases starts

theorem scans_blank (solid : ∀ c behind, more = c :: behind → c ≠ ' ' ∧ c ≠ '\t') :
    Scans start (' ' :: more) [⟨.whitespace, [' ']⟩] false more := by
  have taken : Kind.whitespace.extent start (' ' :: more) = 1 := by
    cases more with
    | nil => rfl
    | cons c behind =>
      obtain ⟨apart, apart'⟩ := solid c behind rfl
      exact @runLength_eq _ [' '] _ (by simp) _ (by simp [apart, apart'])
  refine @Scans.next _ _ _ [' '] _ _ _ ⟨⟨⟨more, rfl⟩, ?_, by simp⟩, ?_, prefers_of_extent taken⟩ .done
  · exact .allowed (.whitespace (List.cons_ne_nil _ _) (by simp))
  · intro kind before written
    refine not_fits_of_starts ?_
    have listed : kind ∈ [.header, .wildcard, .name, .number, .quote, .newline] := before
    simp only [List.mem_cons, List.not_mem_nil, or_false] at listed
    obtain rfl | rfl | rfl | rfl | rfl | rfl := listed <;> decide

theorem scans_break : Scans start ('\n' :: more) [⟨.newline, ['\n']⟩] true more := by
  refine @Scans.next _ _ _ ['\n'] _ _ _
    ⟨⟨⟨more, rfl⟩, .allowed .newline, by simp⟩, ?_, prefers_of_extent rfl⟩ .done
  intro kind before written
  refine not_fits_of_starts ?_
  have listed : kind ∈ [.header, .wildcard, .name, .number, .quote] := before
  simp only [List.mem_cons, List.not_mem_nil, or_false] at listed
  obtain rfl | rfl | rfl | rfl | rfl := listed <;> decide

theorem scans_header {letters : List Char} (filled : letters ≠ [])
    (good : ∀ c ∈ letters, isLetter c = true) :
    Scans true (letters ++ ':' :: more) [⟨.header, letters ++ [':']⟩] false more := by
  have split : letters ++ ':' :: more = letters ++ [':'] ++ more := by
    rw [List.append_assoc, List.singleton_append]
  have taken := extent_header filled good more
  rw [split] at taken ⊢
  rw [← List.length_singleton (a := ':'), ← List.length_append] at taken
  refine .next ⟨⟨List.prefix_append _ _, .allowed (.header filled good), fun _ => rfl⟩, ?_,
    prefers_of_extent taken⟩ .done
  intro kind before
  cases before

theorem scans_word {kind : Kind} {text : List Char} (word : kind ∈ Kind.words)
    (allows : kind.Allows text) (apart : Apart rest) (plain : start = true → ':' ∉ text) :
    Scans start (text ++ rest) [⟨kind, text⟩] false rest := by
  have inside : (kind == .newline) = false := by
    refine beq_eq_false_iff_ne.2 fun same => ?_
    rw [same] at word
    exact absurd word (by decide)
  exact .next (chosen_word word allows apart plain) (inside ▸ .done)

end Gaps

section Breaks

/-- A lexeme of a known class ends with no carriage return. -/
theorem Kind.Matches.getLast?_ne {kind : Kind} {text : List Char} (matched : kind.Matches text)
    (known : kind ≠ .other) : text.getLast? ≠ some '\r' := by
  intro last
  have member := List.mem_of_getLast? last
  cases matched with
  | quote =>
    rw [← List.cons_append, List.getLast?_concat] at last
    exact absurd last (by decide)
  | allowed allows =>
    cases allows with
    | header =>
      rw [List.getLast?_concat] at last
      exact absurd last (by decide)
    | quote =>
      rw [← List.cons_append, List.getLast?_concat] at last
      exact absurd last (by decide)
    | other => exact known rfl
    | name start good =>
      rcases List.mem_cons.1 member with rfl | inside
      · exact absurd start (by decide)
      · exact absurd (good _ inside) (by decide)
    | number _ good => exact absurd (good _ member) (by decide)
    | whitespace _ good => exact absurd (good _ member) (by decide)
    | wildcard | newline => exact absurd member (by decide)

/-- A text that is cut into lexemes of known classes has no line break of two characters. -/
theorem Scans.unifyLineBreaks_eq {start stop : Bool} {text : List Char} {lexemes : List Lexeme}
    (scans : Scans start text lexemes stop []) (known : ∀ lexeme ∈ lexemes, lexeme.kind ≠ .other) :
    unifyLineBreaks text = text := by
  generalize ended : ([] : List Char) = rest at scans
  induction scans with
  | done => exact ended ▸ rfl
  | @next _ _ kind front more _ _ chosen later ih =>
    have solid := chosen.fits.matched.getLast?_ne (known _ List.mem_cons_self)
    have onward := ih (fun lexeme member => known lexeme (List.mem_cons_of_mem _ member)) ended
    by_cases broken : '\n' ∈ front
    · obtain rfl := (chosen.fits.matched.eq_newline broken).2
      rw [List.singleton_append, unifyLineBreaks_cons (by simp), onward]
    · rw [unifyLineBreaks_append broken solid, onward]

end Breaks

def Lexeme.isBlank (lexeme : Lexeme) : Bool := lexeme.kind == .whitespace || lexeme.kind == .newline

/-- A text that is cut into some lexemes, with blanks between them, wherever it stands in front of a blank
or at the end. It starts with a lexeme, and none of them is a stray character. -/
structure Spells (start : Bool) (text : String) (lexemes : List Lexeme) : Prop where
  solid : ∃ c rest, text.toList = c :: rest ∧ c ≠ ' ' ∧ c ≠ '\t'
  scans : ∀ rest, Apart rest → ∃ cut, Scans start (text.toList ++ rest) cut false rest ∧
    cut.filter (! ·.isBlank) = lexemes
  known : ∀ lexeme ∈ lexemes, lexeme.kind ≠ .other

namespace Spells

variable {start : Bool} {text other : String} {lexemes others : List Lexeme}

theorem word {kind : Kind} (word : kind ∈ Kind.words) (allows : kind.Allows text.toList)
    (plain : start = true → ':' ∉ text.toList) : Spells start text [⟨kind, text.toList⟩] where
  solid := by
    obtain ⟨c, rest, split⟩ := List.exists_cons_of_ne_nil (Kind.Matches.allowed allows).ne_nil
    rw [split] at allows
    have starts := starts_of_matches (.allowed allows)
    refine ⟨c, rest, split, ?_, ?_⟩
    · rintro rfl
      obtain rfl | rfl | rfl | rfl := eq_of_mem_words word <;> exact absurd starts (by decide)
    · rintro rfl
      obtain rfl | rfl | rfl | rfl := eq_of_mem_words word <;> exact absurd starts (by decide)
  scans rest apart := by
    refine ⟨_, scans_word word allows apart plain, List.filter_cons_of_pos ?_⟩
    obtain rfl | rfl | rfl | rfl := eq_of_mem_words word <;> rfl
  known lexeme member := by
    rw [List.mem_singleton.1 member]
    rintro rfl
    exact absurd word (by decide)

theorem header (allows : Kind.header.Allows text.toList) :
    Spells true text [⟨.header, text.toList⟩] where
  solid := by
    obtain ⟨c, rest, split⟩ := List.exists_cons_of_ne_nil (Kind.Matches.allowed allows).ne_nil
    have letter : isLetter c = true := by
      rw [split] at allows
      exact starts_of_matches (.allowed allows)
    refine ⟨c, rest, split, ?_, ?_⟩
    · rintro rfl
      exact absurd letter (by decide)
    · rintro rfl
      exact absurd letter (by decide)
  scans rest _ := by
    generalize text.toList = written at allows
    cases allows with
    | header filled good =>
      rw [List.append_assoc, List.singleton_append]
      exact ⟨_, scans_header filled good, rfl⟩
  known lexeme member := by
    rw [List.mem_singleton.1 member]
    exact Kind.noConfusion

theorem known_append (first : ∀ lexeme ∈ lexemes, lexeme.kind ≠ .other)
    (second : ∀ lexeme ∈ others, lexeme.kind ≠ .other) :
    ∀ lexeme ∈ lexemes ++ others, lexeme.kind ≠ .other :=
  fun lexeme member => (List.mem_append.1 member).elim (first lexeme) (second lexeme)

/-- Blanks between two texts are no part of either. -/
theorem blank (first : Spells start text lexemes) (second : Spells false other others) :
    Spells start (text ++ " " ++ other) (lexemes ++ others) where
  solid := by
    obtain ⟨c, rest, split, apart⟩ := first.solid
    exact ⟨c, rest ++ ' ' :: other.toList, by simp [split], apart⟩
  scans rest apart := by
    obtain ⟨c, behind, split, solid⟩ := second.solid
    have gap : Scans false (' ' :: (other.toList ++ rest)) [⟨.whitespace, [' ']⟩] false
        (other.toList ++ rest) := by
      refine scans_blank fun d more found => ?_
      rw [split] at found
      exact (List.cons.inj found).1 ▸ solid
    obtain ⟨cut, scans, rfl⟩ := first.scans (' ' :: (other.toList ++ rest))
      fun d more found => .inl (List.cons.inj found).1.symm
    obtain ⟨cut', scans', rfl⟩ := second.scans rest apart
    refine ⟨cut ++ (⟨.whitespace, [' ']⟩ :: cut'), ?_, List.filter_append ..⟩
    have whole := scans.append (gap.append scans')
    simpa using whole
  known := known_append first.known second.known

/-- Behind a line break a text may start a line. -/
theorem newline (first : Spells start text lexemes) (second : Spells true other others) :
    Spells start (text ++ "\n" ++ other) (lexemes ++ others) where
  solid := by
    obtain ⟨c, rest, split, apart⟩ := first.solid
    exact ⟨c, rest ++ '\n' :: other.toList, by simp [split], apart⟩
  scans rest apart := by
    obtain ⟨cut, scans, rfl⟩ := first.scans ('\n' :: (other.toList ++ rest))
      fun d more found => .inr (List.cons.inj found).1.symm
    obtain ⟨cut', scans', rfl⟩ := second.scans rest apart
    refine ⟨cut ++ (⟨.newline, ['\n']⟩ :: cut'), ?_, List.filter_append ..⟩
    have whole := scans.append (scans_break.append scans')
    simpa using whole
  known := known_append first.known second.known

end Spells

end TopicLint.Rule
