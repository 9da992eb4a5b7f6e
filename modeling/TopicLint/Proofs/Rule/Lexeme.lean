import TopicLint.Rule.Token

/-! The texts of tokens. Every token of a source has a text that its class allows; the class of a
token can be told from its text but for headers, which need the start of a line. -/

namespace TopicLint.Rule

/-- The texts that a token of a class can have. -/
inductive Kind.Allows : Kind → List Char → Prop where
  | header {letters : List Char} (filled : letters ≠ []) (good : ∀ c ∈ letters, isLetter c = true) :
      Allows .header (letters ++ [':'])
  | wildcard : Allows .wildcard ['*']
  | name {c : Char} {rest : List Char} (start : startsName c = true)
      (good : ∀ c ∈ rest, continuesName c = true) : Allows .name (c :: rest)
  | number {digits : List Char} (filled : digits ≠ []) (good : ∀ c ∈ digits, c.isDigit = true) :
      Allows .number digits
  | quote {body : List Char} (good : ∀ c ∈ body, c ≠ '"' ∧ c ≠ '\n') :
      Allows .quote ('"' :: (body ++ ['"']))
  | newline : Allows .newline ['\n']
  | whitespace {blanks : List Char} (filled : blanks ≠ []) (good : ∀ c ∈ blanks, c = ' ' ∨ c = '\t') :
      Allows .whitespace blanks
  | other {c : Char} (good : c ≠ '\n') : Allows .other [c]

theorem isDigit_of_isLetter {c : Char} (letter : isLetter c = true) : ¬c.isDigit = true := by
  change (decide (c.val ≥ 'A'.val ∧ c.val ≤ 'Z'.val) ||
    (decide (c.val ≥ 'a'.val) && decide (c.val ≤ 'z'.val))) = true at letter
  simp only [Bool.or_eq_true, Bool.and_eq_true, decide_eq_true_eq, ge_iff_le,
    UInt32.le_iff_toNat_le, Char.toNat_val] at letter
  rw [Char.isDigit_iff_toNat]
  have upper : 'A'.toNat = 65 := rfl
  have lower : 'a'.toNat = 97 := rfl
  have nine : '9'.toNat = 57 := rfl
  omega

section Extents

variable {good : Char → Bool} {text : List Char} {atLineStart : Bool}

theorem take_runLength (good : Char → Bool) (text : List Char) :
    text.take (runLength good text) = text.takeWhile good :=
  (List.prefix_iff_eq_take.1 (List.takeWhile_prefix good)).symm

theorem good_of_mem_run {c : Char} (member : c ∈ text.takeWhile good) : good c = true :=
  List.all_eq_true.1 List.all_takeWhile c member

theorem run_ne_nil (positive : 0 < runLength good text) : text.takeWhile good ≠ [] :=
  List.ne_nil_of_length_pos positive

theorem take_run_succ {mark : Char} (ended : (text.drop (runLength good text)).head? = some mark) :
    text.take (runLength good text + 1) = text.takeWhile good ++ [mark] := by
  rw [List.take_add_one, take_runLength]
  rw [List.head?_drop] at ended
  rw [ended]
  rfl

/-- What a class takes at the start of a text is a text that the class allows. -/
theorem allows_extent {kind : Kind} (positive : 0 < kind.extent atLineStart text) :
    kind.Allows (text.take (kind.extent atLineStart text)) := by
  revert positive
  fun_cases Kind.extent atLineStart kind text with
  | case1 text letters found =>
    intro _
    simp only [Bool.and_eq_true, decide_eq_true_eq, beq_iff_eq] at found
    rw [take_run_succ found.2]
    exact .header (run_ne_nil found.1.2) fun c => good_of_mem_run
  | case3 rest => exact fun _ => .wildcard
  | case4 c rest start =>
    intro _
    rw [Nat.add_comm, List.take_succ_cons, take_runLength]
    exact .name start fun c => good_of_mem_run
  | case6 text =>
    intro positive
    rw [take_runLength]
    exact .number (run_ne_nil positive) fun c => good_of_mem_run
  | case7 rest body ended =>
    intro _
    rw [List.take_succ_cons, take_run_succ (beq_iff_eq.1 ended)]
    refine .quote fun c member => ?_
    simpa using good_of_mem_run member
  | case9 rest => exact fun _ => .newline
  | case10 text =>
    intro positive
    rw [take_runLength]
    exact .whitespace (run_ne_nil positive) fun c member => by simpa using good_of_mem_run member
  | case12 c rest good => exact fun _ => .other good
  | case2 => exact fun positive => absurd positive (Nat.lt_irrefl 0)
  | case5 => exact fun positive => absurd positive (Nat.lt_irrefl 0)
  | case8 => exact fun positive => absurd positive (Nat.lt_irrefl 0)
  | case11 => exact fun positive => absurd positive (Nat.lt_irrefl 0)
  | case13 => exact fun positive => absurd positive (Nat.lt_irrefl 0)

/-- Some class takes something at the start of every text that is not empty. -/
theorem extent_first_pos (atLineStart : Bool) (c : Char) (rest : List Char) :
    0 < (Kind.first atLineStart (c :: rest)).extent atLineStart (c :: rest) := by
  unfold Kind.first
  cases found : Kind.precedence.find? fun kind => decide (0 < kind.extent atLineStart (c :: rest)) with
  | some kind => exact of_decide_eq_true (List.find?_some found :)
  | none =>
    by_cases lineBreak : c = '\n'
    · have refused := List.find?_eq_none.1 found .newline (by decide)
      subst lineBreak
      simp [Kind.extent] at refused
    · show 0 < if c = '\n' then 0 else 1
      rw [if_neg lineBreak]
      exact Nat.one_pos

end Extents

theorem allows_of_mem_scanLine {line column : Nat} {text : List Char} {token : Token}
    (member : token ∈ scanLine line column text) : token.kind.Allows token.value.toList := by
  fun_induction scanLine line column text with
  | case1 => cases member
  | case2 column c rest text kind length ih =>
    rcases List.mem_cons.1 member with rfl | later
    · simpa only [String.toList_ofList] using allows_extent (extent_first_pos _ c rest)
    · exact ih later

theorem allows_of_mem_scanLines {line : Nat} {texts : List (List Char)} {token : Token}
    (member : token ∈ scanLines line texts) : token.kind.Allows token.value.toList := by
  induction texts generalizing line with
  | nil => cases member
  | cons text rest ih =>
    rcases List.mem_append.1 member with here | later
    · exact allows_of_mem_scanLine here
    · exact ih later

/-- Every token of a source has a text that its class allows. -/
theorem allows_of_mem_bodyTokens {source : String} {token : Token}
    (member : token ∈ bodyTokens source) : token.kind.Allows token.value.toList :=
  allows_of_mem_scanLines member

end TopicLint.Rule
