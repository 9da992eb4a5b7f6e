import TopicLint.Proofs.Rule.Derivation

/-! Where faults are decided. A parser looks at no token behind the one that follows what it takes, and
it finds a fault at the last token that it looks at, or at the end. So a fault depends on nothing behind
its token. -/

namespace TopicLint.Rule

/-- What a parser makes of some tokens stays the same if other tokens stand behind those that it looks
at, and another token behind them all. -/
structure Settled {α : Type} (parser : Token → Parser α) (ending : Token) (tokens : List Token) :
    Prop where
  reads : ∀ value rest, parser ending tokens = .ok (value, rest) →
    ∃ front, tokens = front ++ rest ∧ ∀ token, rest.head? = some token →
      ∀ ending' other, other.head? = some token → parser ending' (front ++ other) = .ok (value, other)
  faults : ∀ fault, parser ending tokens = .error fault → fault.line = ending.line ∨
    ∃ front token behind, tokens = front ++ token :: behind ∧ fault.line = token.line ∧
      ∀ ending' other, parser ending' (front ++ token :: other) = .error fault

/-- Every answer of the parser is settled. -/
def Local {α : Type} (parser : Token → Parser α) : Prop :=
  ∀ ending tokens, Settled parser ending tokens

/-- Takes tokens as long as they are good. -/
def takeRun {α : Type} (good : Token → Bool) (make : List Token → α) : Parser α := fun tokens =>
  .ok (make (tokens.takeWhile good), tokens.dropWhile good)

/-- Whether a good token comes next. It is not taken. -/
def sees (good : Token → Bool) : Parser Bool := fun tokens => .ok (tokens.head?.any good, tokens)

/-- Takes the next token, if there is one. -/
def pass : Parser Unit := fun tokens => .ok ((), tokens.tail)

/-- Finds fault with the next token. -/
def halt {α : Type} (cause : Token → Cause) (ending : Token) : Parser α := fun tokens =>
  .error ⟨(tokens.headD ending).line, cause (tokens.headD ending)⟩

section Combining

variable {α β : Type} {ending : Token} {tokens rest : List Token}

theorem bind_of_fault {first : Parser α} {next : α → Parser β} {fault : Fault}
    (refused : first tokens = .error fault) : (first >>= next) tokens = .error fault := by
  simp [bind, StateT.bind, Except.bind, refused]

theorem settled_missing {parser : Token → Parser α} (cause : Cause)
    (refused : parser ending tokens = .error ⟨ending.line, cause⟩) : Settled parser ending tokens where
  reads value rest read := by
    rw [refused] at read
    cases read
  faults fault same := by
    rw [refused] at same
    cases same
    exact .inl rfl

theorem settled_fault {parser : Token → Parser α} (front : List Token) (token : Token) (cause : Cause)
    (refused : ∀ ending' other, parser ending' (front ++ token :: other) = .error ⟨token.line, cause⟩) :
    Settled parser ending (front ++ token :: rest) where
  reads value left read := by
    rw [refused] at read
    cases read
  faults fault same := by
    rw [refused] at same
    cases same
    exact .inr ⟨front, token, rest, rfl, rfl, refused⟩

/-- A parser that goes on like another one behind some tokens. -/
theorem Settled.behind {outer inner : Token → Parser α} {front : List Token}
    (settled : Settled inner ending rest)
    (same : ∀ ending' other, other.head? = rest.head? → outer ending' (front ++ other) = inner ending' other) :
    Settled outer ending (front ++ rest) where
  reads value left read := by
    rw [same ending rest rfl] at read
    obtain ⟨taken, rfl, anyway⟩ := settled.reads value left read
    refine ⟨front ++ taken, (List.append_assoc ..).symm, ?_⟩
    intro token found ending' other heads
    rw [List.append_assoc, same ending' (taken ++ other) (by simp [found, heads])]
    exact anyway token found ending' other heads
  faults fault refused := by
    rw [same ending rest rfl] at refused
    obtain here | ⟨taken, token, behind, rfl, here, anyway⟩ := settled.faults fault refused
    · exact .inl here
    · refine .inr ⟨front ++ taken, token, behind, (List.append_assoc ..).symm, here, ?_⟩
      intro ending' other
      rw [List.append_assoc, same ending' (taken ++ token :: other) (by simp)]
      exact anyway ending' other

theorem settled_bind {first : Token → Parser α} {next : Token → α → Parser β}
    (start : Settled first ending tokens)
    (after : ∀ value rest, first ending tokens = .ok (value, rest) →
      Settled (fun ending => next ending value) ending rest) :
    Settled (fun ending => first ending >>= next ending) ending tokens where
  reads value rest read := by
    obtain ⟨middle, between, one, two⟩ := bind_read read
    obtain ⟨front, rfl, anyway⟩ := start.reads middle between one
    obtain ⟨taken, rfl, anyway'⟩ := (after middle between one).reads value rest two
    refine ⟨front ++ taken, (List.append_assoc ..).symm, ?_⟩
    intro token found ending' other heads
    have begun := anyway ((taken ++ rest).head?.getD token) (by cases taken <;> simp [found]) ending'
      (taken ++ other) (by cases taken <;> simp [found, heads])
    rw [List.append_assoc, bind_of_read begun]
    exact anyway' token found ending' other heads
  faults fault refused := by
    cases one : first ending tokens with
    | error fault' =>
      rw [bind_of_fault one] at refused
      cases refused
      obtain here | ⟨front, token, behind, split, here, anyway⟩ := start.faults fault one
      · exact .inl here
      · exact .inr ⟨front, token, behind, split, here, fun ending' other =>
          bind_of_fault (anyway ending' other)⟩
    | ok result =>
      obtain ⟨middle, between⟩ := result
      rw [bind_of_read one] at refused
      obtain ⟨front, rfl, anyway⟩ := start.reads middle between one
      obtain here | ⟨taken, token, behind, rfl, here, anyway'⟩ :=
        (after middle between one).faults fault refused
      · exact .inl here
      · refine .inr ⟨front ++ taken, token, behind, (List.append_assoc ..).symm, here, ?_⟩
        intro ending' other
        have begun := anyway ((taken ++ token :: behind).head?.getD token) (by cases taken <;> simp)
          ending' (taken ++ token :: other) (by cases taken <;> simp)
        rw [List.append_assoc, bind_of_read begun]
        exact anyway' ending' other

theorem local_bind {first : Token → Parser α} {next : Token → α → Parser β} (start : Local first)
    (after : ∀ value, Local fun ending => next ending value) :
    Local fun ending => first ending >>= next ending :=
  fun ending tokens => settled_bind (start ending tokens) fun value rest _ => after value ending rest

theorem local_pure (value : α) : Local fun _ => pure value := by
  intro ending tokens
  constructor
  · intro result rest read
    cases read
    exact ⟨[], rfl, fun _ _ _ _ _ => rfl⟩
  · intro fault refused
    cases refused

theorem settled_ite {c : Prop} [Decidable c] {one two : Token → Parser α}
    (first : c → Settled one ending tokens) (second : ¬c → Settled two ending tokens) :
    Settled (fun ending => if c then one ending else two ending) ending tokens := by
  by_cases holds : c
  · simpa only [if_pos holds] using first holds
  · simpa only [if_neg holds] using second holds

theorem local_ite {c : Prop} [Decidable c] {one two : Token → Parser α} (first : Local one)
    (second : Local two) : Local fun ending => if c then one ending else two ending :=
  fun ending tokens => settled_ite (fun _ => first ending tokens) fun _ => second ending tokens

end Combining

section Looking

variable {α : Type}

theorem blanks_eq (next : Parser α) (tokens : List Token) :
    (do takeRun (·.isBlank) fun _ => (); next : Parser α) tokens = next (skipBlank tokens) := rfl

theorem pass_eq (next : Parser α) (tokens : List Token) :
    (do pass; next : Parser α) tokens = next tokens.tail := rfl

theorem sees_eq (good : Token → Bool) (one two : Parser α) (tokens : List Token) :
    (do if ← sees good then one else two : Parser α) tokens =
      match tokens with
      | [] => two []
      | token :: rest => if good token then one (token :: rest) else two (token :: rest) := by
  cases tokens with
  | nil => rfl
  | cons token rest =>
    show (if (some token).any good then one else two) (token :: rest) = _
    rw [Option.any_some]
    dsimp only
    split <;> rfl

theorem local_takeRun (good : Token → Bool) (make : List Token → α) :
    Local fun _ => takeRun good make := by
  intro ending tokens
  constructor
  · intro value rest read
    cases read
    refine ⟨tokens.takeWhile good, List.takeWhile_append_dropWhile.symm, ?_⟩
    intro token found ending' other heads
    have all : ∀ a ∈ tokens.takeWhile good, good a = true :=
      fun a member => List.all_eq_true.1 List.all_takeWhile a member
    have ends : ∀ a more, other = a :: more → good a = false := by
      intro a more split
      obtain ⟨behind, left⟩ := List.head?_eq_some_iff.1 found
      rw [split] at heads
      cases heads
      exact stops_dropWhile tokens token behind left
    obtain ⟨taken, left⟩ := run_eq all ends
    rw [takeRun, taken, left]
  · intro fault refused
    cases refused

theorem local_sees (good : Token → Bool) : Local fun _ => sees good := by
  intro ending tokens
  constructor
  · intro value rest read
    cases read
    refine ⟨[], rfl, ?_⟩
    intro token found ending' other heads
    rw [List.nil_append, sees, found, heads]
  · intro fault refused
    cases refused

theorem local_pass : Local fun _ => pass := by
  intro ending tokens
  constructor
  · intro value rest read
    cases read
    cases tokens with
    | nil => exact ⟨[], rfl, fun _ nothing => nomatch nothing⟩
    | cons token more => exact ⟨[token], rfl, fun _ _ _ _ _ => rfl⟩
  · intro fault refused
    cases refused

theorem keeps_takeRun (good : Token → Bool) (make : List Token → α) : Parser.Keeps (takeRun good make) := by
  intro tokens value rest read
  cases read
  exact (List.dropWhile_sublist _).length_le

theorem keeps_sees (good : Token → Bool) : Parser.Keeps (sees good) := by
  intro tokens value rest read
  cases read
  exact Nat.le_refl _

theorem keeps_pass : Parser.Keeps pass := by
  intro tokens value rest read
  cases read
  exact (List.tail_sublist _).length_le

theorem local_halt (cause : Token → Cause) : Local (halt cause : Token → Parser α) := by
  intro ending tokens
  cases tokens with
  | nil => exact settled_missing _ rfl
  | cons token more => exact settled_fault [] token (cause token) fun _ _ => rfl

end Looking

section Arguments

variable {α : Type}

/-- The blanks in front of a token are skipped, whatever stands behind it. -/
theorem skipBlank_cases (tokens : List Token) : skipBlank tokens = [] ∨
    ∃ blanks token rest, tokens = blanks ++ token :: rest ∧
      ∀ other, skipBlank (blanks ++ token :: other) = token :: other := by
  cases skipped : skipBlank tokens with
  | nil => exact .inl rfl
  | cons token rest =>
    obtain ⟨blanks, blank, split⟩ := exists_blanks tokens
    refine .inr ⟨blanks, token, rest, skipped ▸ split, fun other => ?_⟩
    apply (run_eq blank _).2
    intro first more same
    cases same
    exact isBlank_of_skipBlank skipped

/-- Arguments that are taken and then refused are refused where they stand. -/
theorem local_argument {accepts : Kind → Bool} {cause : Token → Cause} {next : Token → Token → Parser α}
    (after : ∀ token, (Local fun ending => next ending token) ∨
      ∃ cause, ∀ ending, next ending token = throw ⟨token.line, cause⟩) :
    Local fun ending => argument ending accepts cause >>= next ending := by
  intro ending tokens
  obtain nothing | ⟨blanks, token, rest, rfl, skipped⟩ := skipBlank_cases tokens
  · apply settled_missing (cause ending)
    apply bind_of_fault
    rw [argument, nothing]
  by_cases accepted : accepts token.kind = true
  · have taken (ending' : Token) (other : List Token) :
        (argument ending' accepts cause >>= next ending') (blanks ++ token :: other) =
          next ending' token other := by
      apply bind_of_read
      rw [argument, skipped]
      exact if_pos accepted
    obtain goes | ⟨reason, stops⟩ := after token
    · rw [List.append_cons]
      apply (goes ending rest).behind
      intro ending' other _
      rw [← List.append_cons]
      exact taken ending' other
    · apply settled_fault blanks token reason
      intro ending' other
      rw [taken, stops]
      rfl
  · apply settled_fault blanks token (cause token)
    intro ending' other
    apply bind_of_fault
    rw [argument, skipped]
    exact if_neg accepted

variable (context : String)

theorem local_tagArgument : Local fun ending => tagArgument ending context :=
  local_argument fun token => .inl (local_pure token.value)

theorem local_nameArgument : Local fun ending => nameArgument ending context :=
  local_argument fun token => .inl (local_pure token.value)

theorem local_quoteArgument : Local fun ending => quoteArgument ending context :=
  local_argument fun token => .inl (local_pure (Quoted.unquote token.value))

theorem local_numberArgument : Local fun ending => numberArgument ending context := by
  apply local_argument
  intro token
  split
  next n fits => exact .inl (local_pure n)
  next => exact .inr ⟨_, fun _ => rfl⟩

theorem local_formArguments (form : Form) : Local fun ending => formArguments ending context form := by
  have tag := local_tagArgument context
  have name := local_nameArgument context
  have text := local_quoteArgument context
  have number := local_numberArgument context
  cases form with
  | tag check => exact local_bind tag fun _ => local_pure _
  | tagNumber check => exact local_bind tag fun _ => local_bind number fun _ => local_pure _
  | tagQuote check => exact local_bind tag fun _ => local_bind text fun _ => local_pure _
  | tagName check => exact local_bind tag fun _ => local_bind name fun _ => local_pure _
  | tagNameQuote check =>
    exact local_bind tag fun _ => local_bind name fun _ => local_bind text fun _ => local_pure _
  | name check => exact local_bind name fun _ => local_pure _

/-- A word that asks nothing is refused on its own line, before its arguments are looked at. -/
theorem local_questionOf (word : String) (line : Nat) :
    (Local fun ending => questionOf ending word line) ∨
      ∃ cause, ∀ ending, questionOf ending word line = throw ⟨line, cause⟩ := by
  have name := local_nameArgument word
  have text := local_quoteArgument word
  unfold questionOf
  split
  · split
    · exact .inl (local_bind (local_formArguments _ _) fun _ => local_pure _)
    · exact .inr ⟨_, fun _ => rfl⟩
  · split
    · exact .inl (local_bind name fun _ => local_pure _)
    · split
      · exact .inl (local_pure _)
      · split
        · exact .inl (local_bind name fun _ => local_pure _)
        · split
          · exact .inl (local_bind text fun _ => local_pure _)
          · exact .inr ⟨_, fun _ => rfl⟩

theorem local_plainPredicate : Local plainPredicate := by
  apply local_argument
  intro token
  obtain goes | ⟨cause, stops⟩ := local_questionOf token.value token.line
  · exact .inl (local_bind goes fun question => local_pure _)
  · refine .inr ⟨cause, fun ending => ?_⟩
    rw [stops]
    rfl

end Arguments

section Expressions

/-- A term is a predicate, behind a negation if there is one. -/
theorem term_eq (ending : Token) : term ending = (do
    takeRun (·.isBlank) fun _ => ()
    if ← sees (isWord "not") then
      pass
      return (← plainPredicate ending).negate
    else plainPredicate ending) := by
  funext tokens
  rw [blanks_eq, sees_eq]
  rfl

theorem local_term : Local term := by
  have same : term = _ := funext term_eq
  rw [same]
  apply local_bind (local_takeRun _ _)
  intro _
  apply local_bind (local_sees _)
  intro negated
  apply local_ite
  · exact local_bind local_pass fun _ => local_bind local_plainPredicate fun _ => local_pure _
  · exact local_plainPredicate

theorem conjunction_eq (ending : Token) : conjunction ending = (do
    let predicate ← term ending
    takeRun (·.isBlank) fun _ => ()
    if ← sees (isWord "and") then
      pass
      let predicates ← conjunction ending
      return predicate :: predicates
    else return [predicate] : Parser (List Predicate)) := by
  funext tokens
  fun_cases conjunction ending tokens with
  | case1 fault refused => exact (bind_of_fault refused).symm
  | case2 predicate between read _ nothing =>
    rw [bind_of_read read, blanks_eq, sees_eq, nothing]
    rfl
  | case3 predicate between read _ token more found _ joins fault refused =>
    rw [bind_of_read read, blanks_eq, sees_eq, found]
    dsimp only
    rw [if_pos joins, pass_eq, List.tail_cons, bind_of_fault refused]
  | case4 predicate between read _ token more found _ joins predicates after later =>
    rw [bind_of_read read, blanks_eq, sees_eq, found]
    dsimp only
    rw [if_pos joins, pass_eq, List.tail_cons, bind_of_read later]
    rfl
  | case5 predicate between read _ token more found _ apart =>
    rw [bind_of_read read, blanks_eq, sees_eq, found]
    dsimp only
    rw [if_neg apart]
    rfl

theorem conjunctions_eq (ending : Token) : conjunctions ending = (do
    if ← sees (·.kind == .name) then
      let line ← conjunction ending
      let lines ← conjunctions ending
      return line :: lines
    else return [] : Parser (List (List Predicate))) := by
  funext tokens
  rw [sees_eq]
  fun_cases conjunctions ending tokens with
  | case1 => rfl
  | case2 token more named fault refused =>
    dsimp only
    rw [if_pos named, bind_of_fault refused]
  | case3 token more named line rest read _ fault refused =>
    dsimp only
    rw [if_pos named, bind_of_read read, bind_of_fault refused]
  | case4 token more named line rest read _ lines after later =>
    dsimp only
    rw [if_pos named, bind_of_read read, bind_of_read later]
    rfl
  | case5 token more apart =>
    dsimp only
    rw [if_neg apart]
    rfl

theorem repeated_eq (ending : Token) (header : String) : repeated ending header = (do
    if ← sees (·.isSection header) then
      pass
      takeRun (·.isBlank) fun _ => ()
      let lines ← conjunctions ending
      let others ← repeated ending header
      return lines ++ others
    else return [] : Parser (List (List Predicate))) := by
  funext tokens
  rw [sees_eq]
  fun_cases repeated ending header tokens with
  | case1 => rfl
  | case2 token more opens fault refused =>
    dsimp only
    rw [if_pos opens, pass_eq, List.tail_cons, blanks_eq, bind_of_fault refused]
  | case3 token more opens lines rest read _ _ fault refused =>
    dsimp only
    rw [if_pos opens, pass_eq, List.tail_cons, blanks_eq, bind_of_read read, bind_of_fault refused]
  | case4 token more opens lines rest read _ _ others after later =>
    dsimp only
    rw [if_pos opens, pass_eq, List.tail_cons, blanks_eq, bind_of_read read, bind_of_read later]
    rfl
  | case5 token more apart =>
    dsimp only
    rw [if_neg apart]
    rfl

theorem local_conjunction : Local conjunction := by
  have same : conjunction = _ := funext conjunction_eq
  intro ending tokens
  -- By induction on the number of tokens; a term takes at least one of them.
  generalize size : tokens.length = n
  induction n using Nat.strongRecOn generalizing tokens with
  | ind n ih =>
    rw [same]
    apply settled_bind (local_term ending tokens)
    intro predicate between read
    have fewer := takes_term ending _ _ _ read
    apply settled_bind (local_takeRun _ _ ending between)
    intro _ left skipped
    have most := keeps_takeRun _ _ _ _ _ skipped
    apply settled_bind (local_sees _ ending left)
    intro joined rest seen
    have all := keeps_sees _ _ _ _ seen
    apply settled_ite
    · intro _
      apply settled_bind (local_pass ending rest)
      intro _ more passed
      have shorter := keeps_pass _ _ _ passed
      apply settled_bind (ih more.length (by omega) more rfl)
      intro predicates after _
      exact local_pure _ ending after
    · intro _
      exact local_pure _ ending rest

theorem local_conjunctions : Local conjunctions := by
  have same : conjunctions = _ := funext conjunctions_eq
  intro ending tokens
  generalize size : tokens.length = n
  induction n using Nat.strongRecOn generalizing tokens with
  | ind n ih =>
    rw [same]
    apply settled_bind (local_sees _ ending tokens)
    intro named rest seen
    have all := keeps_sees _ _ _ _ seen
    apply settled_ite
    · intro _
      apply settled_bind (local_conjunction ending rest)
      intro line between read
      have fewer := takes_conjunction ending _ _ _ read
      apply settled_bind (ih between.length (by omega) between rfl)
      intro lines after _
      exact local_pure _ ending after
    · intro _
      exact local_pure _ ending rest

theorem local_repeated (header : String) : Local fun ending => repeated ending header := by
  have same : (fun ending => repeated ending header) = _ := funext fun ending => repeated_eq ending header
  intro ending tokens
  generalize size : tokens.length = n
  induction n using Nat.strongRecOn generalizing tokens with
  | ind n ih =>
    rw [same]
    apply settled_bind (local_sees _ ending tokens)
    intro opens rest seen
    have all := keeps_sees _ _ _ _ seen
    apply settled_ite
    · intro opened
      apply settled_bind (local_pass ending rest)
      intro _ inside passed
      have fewer : inside.length < rest.length := by
        cases passed
        cases seen
        cases tokens with
        | nil => cases opened
        | cons token more => exact Nat.lt_succ_self more.length
      apply settled_bind (local_takeRun _ _ ending inside)
      intro _ left skipped
      have most := keeps_takeRun _ _ _ _ _ skipped
      apply settled_bind (local_conjunctions ending left)
      intro lines between read
      have shorter := keeps_conjunctions ending _ _ _ read
      apply settled_bind (ih between.length (by omega) between rfl)
      intro others after _
      exact local_pure _ ending after
    · intro _
      exact local_pure _ ending rest

end Expressions

end TopicLint.Rule
