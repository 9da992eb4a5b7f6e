import TopicLint.Proofs.Rule.Scan

/-! Where tokens stand. Lines and columns are those behind the tokens before, counted in characters,
and headers stand on the lines that start with one. -/

namespace TopicLint.Rule

/-- The values of tokens put together. -/
def wording (tokens : List Token) : List Char := tokens.flatMap (·.value.toList)

theorem wording_cons (token : Token) (rest : List Token) :
    wording (token :: rest) = token.value.toList ++ wording rest := List.flatMap_cons

theorem wording_append (one two : List Token) : wording (one ++ two) = wording one ++ wording two :=
  List.flatMap_append

/-- The line on which a text goes on. -/
def lineBehind (before : List Char) : Nat := 1 + before.count '\n'

/-- The column at which a text goes on. -/
def columnBehind (before : List Char) : Nat := 1 + (before.reverse.takeWhile (· != '\n')).length

/-- Each token stands where the text before it and the tokens before it end. -/
def Placed : List Char → List Token → Prop
  | _, [] => True
  | before, token :: rest =>
      (token.line = lineBehind before ∧ token.column = columnBehind before) ∧
        Placed (before ++ token.value.toList) rest

section Places

variable {before text rest : List Char}

theorem lineBehind_append (unbroken : '\n' ∉ text) : lineBehind (before ++ text) = lineBehind before := by
  rw [lineBehind, List.count_append, List.count_eq_zero.2 unbroken, Nat.add_zero, lineBehind]

theorem columnBehind_append (unbroken : '\n' ∉ text) :
    columnBehind (before ++ text) = columnBehind before + text.length := by
  have inside : ∀ c ∈ text.reverse, (c != '\n') = true := by
    intro c member
    refine bne_iff_ne.2 ?_
    rintro rfl
    exact unbroken (List.mem_reverse.1 member)
  rw [columnBehind, List.reverse_append, List.takeWhile_append_of_pos inside, List.length_append,
    List.length_reverse, columnBehind]
  omega

theorem lineBehind_break (unbroken : '\n' ∉ text) :
    lineBehind (before ++ (text ++ ['\n'])) = lineBehind before + 1 := by
  rw [← List.append_assoc, lineBehind, List.count_append, ← Nat.add_assoc]
  exact congrArg (· + 1) (lineBehind_append unbroken)

theorem columnBehind_break : columnBehind (before ++ ['\n']) = 1 := by
  rw [columnBehind, List.reverse_append]
  rfl

theorem columnBehind_pos : 0 < columnBehind before := Nat.lt_add_right _ Nat.one_pos

/-- Behind a lexeme a line starts just if the lexeme is a line break. -/
theorem starts_behind {kind : Kind} (matched : kind.Matches text) :
    (kind == .newline) = (columnBehind (before ++ text) == 1) := by
  by_cases broken : '\n' ∈ text
  · obtain ⟨rfl, rfl⟩ := matched.eq_newline broken
    rw [columnBehind_break]
    rfl
  · have apart : kind ≠ .newline := fun same => broken (matched.eq_newline_iff.1 same)
    have filled : 0 < text.length := List.length_pos_iff.2 matched.ne_nil
    have counted : 0 < columnBehind before := columnBehind_pos
    rw [beq_eq_false_iff_ne.2 apart, columnBehind_append broken, beq_eq_false_iff_ne.2 (by omega)]

theorem placed_append {one two : List Token} :
    Placed before (one ++ two) ↔ Placed before one ∧ Placed (before ++ wording one) two := by
  induction one generalizing before with
  | nil => simp [Placed, wording]
  | cons token more ih =>
    simp only [List.cons_append, Placed, ih, wording_cons, List.append_assoc, and_assoc]

theorem Scans.wording_eq {start stop : Bool} {lexemes : List Lexeme}
    (scans : Scans start text lexemes stop rest) : text = lexemes.flatMap (·.text) ++ rest := by
  induction scans with
  | done => rfl
  | next chosen later ih => rw [List.flatMap_cons, List.append_assoc, ← ih]

theorem flatMap_lexeme (tokens : List Token) :
    (tokens.map Token.lexeme).flatMap (·.text) = wording tokens := List.flatMap_map ..

theorem wording_scanLine {line : Nat} (filled : text ≠ []) (ends : EndsLine text rest) :
    wording (scanLine line 1 text) = text := by
  obtain ⟨stop, scans, -⟩ := scans_scanLine line filled Nat.one_pos ends
  have same := scans.wording_eq
  rw [flatMap_lexeme] at same
  exact (List.append_cancel_right same).symm

theorem placed_scanLine {line column : Nat} (here : line = lineBehind before)
    (there : column = columnBehind before) (ends : EndsLine text rest) :
    Placed before (scanLine line column text) := by
  generalize size : text.length = n
  induction n using Nat.strongRecOn generalizing before text column with
  | ind n ih =>
    cases text with
    | nil =>
      rw [scanLine]
      exact trivial
    | cons c more =>
      obtain ⟨kind, front, left, split, chosen, scanned⟩ := scanLine_cons line column c more
      have filled : 0 < front.length := List.length_pos_iff.2 chosen.ne_nil
      rw [split] at ends size
      rw [List.length_append] at size
      rw [scanned, Placed, String.toList_ofList]
      refine ⟨⟨here, there⟩, ?_⟩
      by_cases onward : left = []
      · rw [onward, scanLine]
        exact trivial
      · obtain ⟨unbroken, ends'⟩ := ends.behind onward
        exact ih left.length (by omega) (by rw [here, lineBehind_append unbroken])
          (by rw [there, columnBehind_append unbroken]) ends' rfl

theorem placed_scanLines {line : Nat} {texts : List (List Char)} (divided : Divided texts)
    (here : line = lineBehind before) (there : columnBehind before = 1) :
    Placed before (scanLines line texts) := by
  induction divided generalizing before line with
  | none => exact trivial
  | last filled unbroken =>
    rw [scanLines, scanLines, List.append_nil]
    exact placed_scanLine here there.symm (.inr ⟨rfl, unbroken⟩)
  | @next body texts unbroken later ih =>
    have ends : EndsLine (body ++ ['\n']) texts.flatten := .inl ⟨body, rfl, unbroken⟩
    rw [scanLines, placed_append, wording_scanLine (List.concat_ne_nil _ _) ends]
    refine ⟨placed_scanLine here there.symm ends, ih ?_ ?_⟩
    · rw [lineBehind_break unbroken, here]
    · rw [← List.append_assoc, columnBehind_break]

theorem wording_scanLines (line : Nat) {texts : List (List Char)} (divided : Divided texts) :
    wording (scanLines line texts) = texts.flatten := by
  obtain ⟨stop, scans⟩ := scans_scanLines line divided
  have same := scans.wording_eq
  rw [flatMap_lexeme, List.append_nil] at same
  exact same.symm

/-- At each token the lexeme to choose is cut off what is left. -/
theorem Scans.chosen_at {start stop : Bool} {front after : List Token} {token : Token}
    (scans : Scans start text ((front ++ token :: after).map Token.lexeme) stop rest)
    (placed : Placed before (front ++ token :: after)) (begins : start = (columnBehind before == 1)) :
    Chosen (token.column == 1) (wording (token :: after) ++ rest) token.lexeme := by
  induction front generalizing start text before with
  | nil =>
    have whole := scans.wording_eq
    rw [flatMap_lexeme, List.nil_append] at whole
    rw [← whole, placed.1.2, ← begins]
    cases scans with
    | next chosen => exact chosen
  | cons first more ih =>
    cases scans with
    | next chosen later => exact ih later placed.2 (starts_behind chosen.fits.matched)

theorem Placed.at {front after : List Token} {token : Token}
    (placed : Placed before (front ++ token :: after)) :
    token.line = lineBehind (before ++ wording front) ∧
      token.column = columnBehind (before ++ wording front) :=
  (placed_append.1 placed).2.1

/-- Each token of a source stands where those before it end. -/
theorem placed_bodyTokens {source : String} {front after : List Token} {token : Token}
    (split : bodyTokens source = front ++ token :: after) :
    token.line = lineBehind (wording front) ∧ token.column = columnBehind (wording front) := by
  have placed : Placed [] (bodyTokens source) :=
    placed_scanLines (divided_sourceLines source) rfl rfl
  rw [split] at placed
  exact placed.at

end Places

section Headers

variable {line column : Nat} {text : List Char}

/-- A line that starts with letters and a colon behind them. -/
def OpensSection (text : List Char) : Prop :=
  ∃ letters rest, letters ≠ [] ∧ (∀ c ∈ letters, isLetter c = true) ∧ text = letters ++ ':' :: rest

theorem opensSection_iff_extent : OpensSection text ↔ 0 < Kind.header.extent true text := by
  constructor
  · rintro ⟨letters, rest, filled, good, rfl⟩
    rw [extent_header filled good]
    exact Nat.succ_pos _
  · intro taken
    have allowed := allows_extent taken
    have split := List.take_append_drop (Kind.header.extent true text) text
    generalize text.take (Kind.header.extent true text) = front at allowed split
    cases allowed with
    | header filled good => exact ⟨_, _, filled, good, by rw [← split, List.append_assoc]; rfl⟩

instance (text : List Char) : Decidable (OpensSection text) :=
  decidable_of_iff _ opensSection_iff_extent.symm

theorem header_first {kind : Kind} (other : kind ≠ .header) :
    Kind.header ∈ Kind.precedence.takeWhile (· != kind) := by
  cases kind with
  | header => exact absurd rfl other
  | _ => decide

theorem opensSection_iff {kind : Kind} {front more : List Char}
    (chosen : Chosen true (front ++ more) ⟨kind, front⟩) :
    OpensSection (front ++ more) ↔ kind = .header := by
  constructor
  · rintro ⟨letters, rest, filled, good, split⟩
    refine Decidable.byContradiction fun other => ?_
    refine chosen.first .header (header_first other) (letters ++ [':'])
      ⟨?_, .allowed (.header filled good), fun _ => rfl⟩
    rw [split]
    exact ⟨rest, List.append_assoc ..⟩
  · rintro rfl
    have matched : Kind.header.Matches front := chosen.fits.matched
    cases matched with
    | allowed allows =>
      cases allows with
      | @header letters filled good => exact ⟨letters, more, filled, good, List.append_assoc ..⟩

/-- A line that starts like a section starts with its header. -/
theorem scanLine_header (line : Nat) {letters : List Char} (filled : letters ≠ [])
    (good : ∀ c ∈ letters, isLetter c = true) (rest : List Char) : scanLine line 1 (letters ++ ':' :: rest) =
      ⟨.header, String.ofList (letters ++ [':']), line, 1⟩ :: scanLine line (letters.length + 2) rest := by
  have taken := extent_header filled good rest
  have first : Kind.first true (letters ++ ':' :: rest) = .header := by
    rw [Kind.first, Kind.precedence, List.find?_cons_of_pos (by simp [taken])]
    rfl
  have size : letters.length + 1 = (letters ++ [':']).length := by simp
  obtain ⟨c, more, rfl⟩ := List.exists_cons_of_ne_nil filled
  rw [List.cons_append, scanLine]
  simp only [← List.cons_append, beq_self_eq_true, first, taken]
  rw [List.append_cons, size, List.take_left, ← size]
  have left : (more ++ ':' :: rest).drop ((c :: more).length + 1 - 1) = rest := by
    rw [List.append_cons]
    exact List.drop_left' (by simp)
  rw [left, Nat.add_comm 1]

theorem of_mem_scanLine {token : Token} (member : token ∈ scanLine line column text) :
    token.line = line ∧ column ≤ token.column ∧ (token.kind = .header → token.column = 1) := by
  generalize size : text.length = n
  induction n using Nat.strongRecOn generalizing text column with
  | ind n ih =>
    cases text with
    | nil =>
      rw [scanLine] at member
      cases member
    | cons c more =>
      obtain ⟨kind, front, left, split, chosen, scanned⟩ := scanLine_cons line column c more
      have filled : 0 < front.length := List.length_pos_iff.2 chosen.ne_nil
      rw [split, List.length_append] at size
      rw [scanned] at member
      rcases List.mem_cons.1 member with rfl | later
      · exact ⟨rfl, Nat.le_refl _, fun titled => beq_iff_eq.1 (chosen.fits.opening titled)⟩
      · obtain ⟨same, bound, opening⟩ := ih left.length (by omega) later rfl
        exact ⟨same, by omega, opening⟩

theorem header_mem_scanLine_iff (line : Nat) :
    (∃ token ∈ scanLine line 1 text, token.kind = .header) ↔ OpensSection text := by
  cases text with
  | nil =>
    rw [scanLine]
    constructor
    · rintro ⟨_, member, -⟩
      cases member
    · rintro ⟨letters, rest, -, -, split⟩
      exact absurd split.symm (List.append_ne_nil_of_right_ne_nil _ (List.cons_ne_nil _ _))
  | cons c more =>
    obtain ⟨kind, front, left, split, chosen, scanned⟩ := scanLine_cons line 1 c more
    have filled : 0 < front.length := List.length_pos_iff.2 chosen.ne_nil
    rw [scanned, split, opensSection_iff chosen]
    constructor
    · rintro ⟨token, member, titled⟩
      rcases List.mem_cons.1 member with rfl | later
      · exact titled
      · obtain ⟨-, bound, opening⟩ := of_mem_scanLine later
        have first := opening titled
        omega
    · exact fun titled => ⟨_, List.mem_cons_self, titled⟩

theorem of_mem_scanLines {texts : List (List Char)} {token : Token}
    (member : token ∈ scanLines line texts) :
    line ≤ token.line ∧ (token.kind = .header → token.column = 1) := by
  induction texts generalizing line with
  | nil => cases member
  | cons text rest ih =>
    rcases List.mem_append.1 member with here | later
    · obtain ⟨same, -, opening⟩ := of_mem_scanLine here
      exact ⟨Nat.le_of_eq same.symm, opening⟩
    · obtain ⟨bound, opening⟩ := ih later
      exact ⟨Nat.le_of_succ_le bound, opening⟩

/-- A header stands on just the lines that start with one. -/
theorem header_mem_scanLines_iff (line : Nat) {texts : List (List Char)} {k : Nat}
    (found : texts[k]? = some text) :
    (∃ token ∈ scanLines line texts, token.kind = .header ∧ token.line = line + k) ↔
      OpensSection text := by
  induction texts generalizing line k with
  | nil => cases found
  | cons first rest ih =>
    simp only [scanLines, List.mem_append]
    cases k with
    | zero =>
      cases found
      rw [← header_mem_scanLine_iff line]
      constructor
      · rintro ⟨token, here | later, titled, same⟩
        · exact ⟨token, here, titled⟩
        · have bound := (of_mem_scanLines later).1
          omega
      · rintro ⟨token, here, titled⟩
        exact ⟨token, .inl here, titled, (of_mem_scanLine here).1⟩
    | succ k =>
      rw [← ih (line + 1) found]
      constructor
      · rintro ⟨token, here | later, titled, same⟩
        · have bound := (of_mem_scanLine here).1
          omega
        · exact ⟨token, later, titled, by omega⟩
      · rintro ⟨token, later, titled, same⟩
        exact ⟨token, .inr later, titled, by omega⟩

end Headers

end TopicLint.Rule
