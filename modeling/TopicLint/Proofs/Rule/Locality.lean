import TopicLint.Proofs.Rule.Settled
import TopicLint.Proofs.Rule.Spelling
import TopicLint.Proofs.Rule.Place

/-! Compile errors are local. A rule file is read from the front by parsers that look no further than
the fault, so nothing behind the line of an error hides it, changes it or moves it. -/

namespace TopicLint.Rule

section Sections

variable {α : Type} (ending : Token) (header : String)

/-- Takes blanks up to a header, which has to come next and is not taken. -/
def toSection (ending : Token) : Parser Unit := do
  takeRun (·.isBlank) fun _ => ()
  if ← sees (·.isSection header) then return () else halt (.expectedSection header) ending

theorem local_toSection : Local (toSection header) := by
  apply local_bind (local_takeRun _ _)
  intro _
  apply local_bind (local_sees _)
  intro opens
  exact local_ite (local_pure _) (local_halt _)

theorem toSection_eq (tokens : List Token) :
    toSection header ending tokens = (fromSection ending header tokens).map ((), ·) := by
  unfold toSection fromSection
  rw [blanks_eq, sees_eq]
  cases skipBlank tokens with
  | nil => rfl
  | cons token rest =>
    dsimp only
    split <;> rfl

/-- What is read from a header on. -/
theorem section_eq (next : Parser α) (tokens : List Token) :
    (fromSection ending header tokens >>= next) = (toSection header ending >>= fun _ => next) tokens := by
  cases found : fromSection ending header tokens with
  | error fault =>
    rw [bind_of_fault (by rw [toSection_eq, found]; rfl)]
    rfl
  | ok opening =>
    rw [bind_of_read (by rw [toSection_eq, found]; rfl)]
    rfl

theorem ruleType_eq : ruleType ending = (do
    toSection "rule:" ending
    pass
    let token ← argument ending (· == .name) (.expectedName "rule:")
    match Severity.ofName? token.value with
    | some severity => return severity
    | none => throw ⟨token.line, .unknownRuleType token.value⟩ : Parser Severity) := by
  funext tokens
  rw [← section_eq]
  apply bind_congr
  intro opening
  apply bind_congr (x := argument ending (· == .name) (.expectedName "rule:") opening.tail)
  intro ⟨token, rest⟩
  dsimp only
  cases Severity.ofName? token.value <;> rfl

theorem local_ruleType : Local ruleType := by
  have same : ruleType = _ := funext ruleType_eq
  rw [same]
  apply local_bind (local_toSection _)
  intro _
  apply local_bind local_pass
  intro _
  apply local_argument
  intro token
  split
  next severity known => exact .inl (local_pure severity)
  next => exact .inr ⟨_, fun _ => rfl⟩

theorem extensionList_eq : extensionList ending = (do
    toSection "extensions:" ending
    pass
    takeRun (fun token => token.isBlank || token.kind == .name)
      fun taken => (taken.filter (·.kind == .name)).map (·.value)) := by
  funext tokens
  rw [← section_eq]
  exact bind_congr fun _ => rfl

theorem local_extensionList : Local extensionList := by
  have same : extensionList = _ := funext extensionList_eq
  rw [same]
  exact local_bind (local_toSection _) fun _ => local_bind local_pass fun _ => local_takeRun _ _

theorem expression_eq : expression ending header = (do
    toSection header ending
    let lines ← repeated ending header
    if lines.isEmpty then halt (fun _ => .emptyExpression header) ending
    else return ⟨lines⟩ : Parser Expression) := by
  funext tokens
  rw [← section_eq]
  apply bind_congr
  intro opening
  apply bind_congr (x := repeated ending header opening)
  intro ⟨lines, rest⟩
  dsimp only
  cases lines.isEmpty <;> rfl

theorem local_expression : Local fun ending => expression ending header := by
  have same : (fun ending => expression ending header) = _ :=
    funext fun ending => expression_eq ending header
  rw [same]
  apply local_bind (local_toSection _)
  intro _
  apply local_bind (local_repeated _)
  intro lines
  exact local_ite (local_halt _) (local_pure _)

/-- The message that the tokens behind its header state. -/
def lastText (tokens : List Token) : Except Fault String :=
  match nextSection tokens with
  | [] => .ok (sectionText tokens)
  | header :: _ => .error ⟨header.line, .sectionInMessage header⟩

theorem messageText_eq_lastText (tokens : List Token) : messageText ending tokens =
    (fromSection ending "message:" tokens >>= fun opening => lastText opening.tail) := rfl

/-- The message of a rule, with which its file has to end. -/
def worded (ending : Token) : Parser String := do
  toSection "message:" ending
  pass
  let text ← takeRun (·.kind != .header) fun taken =>
    Text.trim (String.ofList (taken.flatMap (·.value.toList)))
  if ← sees (·.kind == .header) then halt .sectionInMessage ending else return text

theorem messageText_eq (tokens : List Token) :
    messageText ending tokens = (worded ending tokens).map (·.1) := by
  unfold worded
  rw [← section_eq, messageText_eq_lastText]
  cases fromSection ending "message:" tokens with
  | error fault => rfl
  | ok opening =>
    show lastText opening.tail =
      ((do
        if ← sees (·.kind == .header) then halt .sectionInMessage ending
        else return sectionText opening.tail : Parser String) (nextSection opening.tail)).map (·.1)
    rw [sees_eq, lastText]
    cases left : nextSection opening.tail with
    | nil => rfl
    | cons token rest =>
      have titled : (token.kind == .header) = true := by simpa using stops_dropWhile _ _ _ left
      dsimp only
      rw [if_pos titled]
      rfl

theorem local_worded : Local worded := by
  apply local_bind (local_toSection _)
  intro _
  apply local_bind local_pass
  intro _
  apply local_bind (local_takeRun _ _)
  intro text
  apply local_bind (local_sees _)
  intro followed
  exact local_ite (local_halt _) (local_pure _)

/-- The comment of a rule file, which needs no other token behind it. -/
def described : Parser (Option String) := do
  takeRun (·.isBlank) fun _ => ()
  if ← sees (·.isSection "comment:") then
    pass
    takeRun (·.kind != .header) fun taken =>
      some (Text.trim (String.ofList (taken.flatMap (·.value.toList)))) |>.filter (! ·.isEmpty)
  else return none

theorem comment_eq (tokens : List Token) : described tokens = .ok (comment tokens) := by
  unfold described comment
  rw [blanks_eq, sees_eq]
  cases skipBlank tokens with
  | nil => rfl
  | cons token rest =>
    dsimp only
    rw [filter_described]
    split <;> rfl

theorem local_described : Local fun _ => described := by
  apply local_bind (local_takeRun _ _)
  intro _
  apply local_bind (local_sees _)
  intro titled
  apply local_ite
  · exact local_bind local_pass fun _ => local_takeRun _ _
  · exact local_pure _

/-- The rule of a file, as one parser. -/
def stated (file : String) (ending : Token) : Parser TopicLint.Rule := do
  let description ← described
  let severity ← ruleType ending
  let extensions ← extensionList ending
  let condition ← expression ending "when:"
  let test ← expression ending "test:"
  let message ← worded ending
  return { source := file, description, severity, extensions, condition, test, message }

theorem answer_bind {β : Type} (first : Parser α) (next : α → Parser β) (tokens : List Token) :
    ((first >>= next) tokens).map (·.1) =
      (first tokens >>= fun result => (next result.1 result.2).map (·.1)) := by
  cases read : first tokens with
  | error fault =>
    rw [bind_of_fault read]
    rfl
  | ok result =>
    rw [bind_of_read read]
    rfl

theorem ruleOf_eq (file : String) (tokens : List Token) :
    ruleOf ending file tokens = (stated file ending tokens).map (·.1) := by
  unfold stated
  rw [answer_bind, comment_eq]
  show ruleOf ending file tokens = Except.map _ _
  rw [answer_bind]
  apply bind_congr
  intro severity
  rw [answer_bind]
  apply bind_congr
  intro extensions
  rw [answer_bind]
  apply bind_congr
  intro condition
  rw [answer_bind]
  apply bind_congr
  intro ⟨test, rest⟩
  rw [answer_bind]
  dsimp only
  rw [messageText_eq]
  cases worded ending rest <;> rfl

theorem local_stated (file : String) : Local (stated file) :=
  local_bind local_described fun _ =>
    local_bind local_ruleType fun _ =>
      local_bind local_extensionList fun _ =>
        local_bind (local_expression _) fun _ =>
          local_bind (local_expression _) fun _ =>
            local_bind local_worded fun _ => local_pure _

theorem faults_ruleOf {file : String} {tokens : List Token} {fault : Fault}
    (refused : ruleOf ending file tokens = .error fault) : fault.line = ending.line ∨
      ∃ front token behind, tokens = front ++ token :: behind ∧ fault.line = token.line ∧
        ∀ ending' other, ruleOf ending' file (front ++ token :: other) = .error fault := by
  rw [ruleOf_eq] at refused
  cases read : stated file ending tokens with
  | ok result =>
    rw [read] at refused
    cases refused
  | error fault' =>
    rw [read] at refused
    cases refused
    obtain here | ⟨front, token, behind, split, here, anyway⟩ :=
      (local_stated file ending tokens).faults fault read
    · exact .inl here
    · refine .inr ⟨front, token, behind, split, here, ?_⟩
      intro ending' other
      rw [ruleOf_eq, anyway]
      rfl

end Sections

section Sources

/-- A text of so many lines, each with the line break that ends it. -/
inductive EndedLines : Nat → List Char → Prop where
  | none : EndedLines 0 []
  | next {count : Nat} {body rest : List Char} (unbroken : '\n' ∉ body)
      (later : EndedLines count rest) : EndedLines (count + 1) (body ++ '\n' :: rest)

theorem lines_break {body : List Char} (unbroken : '\n' ∉ body) (rest : List Char) :
    lines (body ++ '\n' :: rest) = (body ++ ['\n']) :: lines rest := by
  induction body with
  | nil => simp [lines]
  | cons c more ih =>
    rw [List.mem_cons, not_or] at unbroken
    rw [List.cons_append, lines, if_neg (Ne.symm unbroken.1), ih unbroken.2]
    rfl

/-- A carriage return at the end of a line is dropped whatever stands behind the line. -/
theorem unifyLineBreaks_break {body : List Char} (unbroken : '\n' ∉ body) :
    ∃ kept, '\n' ∉ kept ∧
      ∀ rest, unifyLineBreaks (body ++ '\n' :: rest) = kept ++ '\n' :: unifyLineBreaks rest := by
  by_cases returns : body.getLast? = some '\r'
  · obtain ⟨front, rfl⟩ := List.getLast?_eq_some_iff.1 returns
    have inside : '\n' ∉ front := fun member => unbroken (List.mem_append_left _ member)
    refine ⟨front, inside, fun rest => ?_⟩
    rw [List.append_assoc]
    exact unifyLineBreaks_return (not_infix_of_unbroken inside) rest
  · exact ⟨body, unbroken, fun rest => unifyLineBreaks_append unbroken returns ('\n' :: rest)⟩

theorem EndedLines.unified {count : Nat} {text : List Char} (ended : EndedLines count text) :
    ∃ texts, texts.length = count ∧
      ∀ rest, lines (unifyLineBreaks (text ++ rest)) = texts ++ lines (unifyLineBreaks rest) := by
  induction ended with
  | none => exact ⟨[], rfl, fun _ => rfl⟩
  | @next count body later unbroken _ ih =>
    obtain ⟨texts, size, same⟩ := ih
    obtain ⟨kept, plain, breaks⟩ := unifyLineBreaks_break unbroken
    refine ⟨(kept ++ ['\n']) :: texts, congrArg (· + 1) size, fun rest => ?_⟩
    rw [List.append_assoc, List.cons_append, breaks, lines_break plain, same, List.cons_append]

theorem EndedLines.dropMark {count : Nat} {text : List Char} (ended : EndedLines count text)
    (positive : 0 < count) :
    ∃ left, EndedLines count left ∧ ∀ rest, Rule.dropMark (text ++ rest) = left ++ rest := by
  cases ended with
  | none => exact absurd positive (Nat.lt_irrefl 0)
  | @next count body later unbroken ended =>
    by_cases marked : ∃ more, body = '\uFEFF' :: more
    · obtain ⟨more, rfl⟩ := marked
      exact ⟨more ++ '\n' :: later, .next (List.not_mem_of_not_mem_cons unbroken) ended, fun _ => rfl⟩
    · refine ⟨body ++ '\n' :: later, .next unbroken ended, fun rest => ?_⟩
      apply dropMark.eq_2
      intro behind split
      cases body with
      | nil => cases split
      | cons c more =>
        cases split
        exact marked ⟨more, rfl⟩

theorem scanLines_append (line : Nat) (texts others : List (List Char)) :
    scanLines line (texts ++ others) = scanLines line texts ++ scanLines (line + texts.length) others := by
  induction texts generalizing line with
  | nil => rfl
  | cons text more ih =>
    rw [List.cons_append, scanLines, ih, scanLines, List.append_assoc, List.length_cons]
    congr 3
    omega

variable {file : String} {error : CompileError} {p q : String}

/-- Behind lines that are ended, the lines of a source go on in the same way. -/
theorem EndedLines.sourceLines {count : Nat} (ended : EndedLines count p.toList) (positive : 0 < count) :
    ∃ texts, texts.length = count ∧
      ∀ rest : String, Rule.sourceLines (p ++ rest) = texts ++ lines (unifyLineBreaks rest.toList) := by
  obtain ⟨left, kept, marks⟩ := ended.dropMark positive
  obtain ⟨texts, size, same⟩ := kept.unified
  refine ⟨texts, size, fun rest => ?_⟩
  rw [sourceLines_eq, plainText, String.toList_append, marks, same]

theorem lines_unifyLineBreaks_ne_nil {text : List Char} (filled : text ≠ []) :
    lines (unifyLineBreaks text) ≠ [] := by
  intro nothing
  have whole := flatten_lines (unifyLineBreaks text)
  rw [nothing] at whole
  cases text using unifyLineBreaks.fun_cases with
  | case1 => cases whole
  | case2 => rw [unifyLineBreaks.eq_2] at whole <;> [cases whole; assumption]
  | case3 => exact filled rfl

theorem compile_eq_error {source : String} : compile file source = .error error ↔
    ∃ fault, ruleOf (endToken source) file (bodyTokens source) = .error fault ∧
      error = ⟨file, fault.line, fault.cause⟩ := by
  unfold compile
  cases ruleOf (endToken source) file (bodyTokens source) with
  | ok rule => simp
  | error fault => simp [eq_comm]

theorem line_pos {fault : Fault} {source : String}
    (refused : ruleOf (endToken source) file (bodyTokens source) = .error fault) : 0 < fault.line := by
  obtain here | ⟨front, token, behind, split, here, -⟩ := faults_ruleOf _ refused
  · rw [here]
    exact Nat.le_max_left 1 _
  · rw [here]
    have member : token ∈ bodyTokens source := split ▸ List.mem_append_cons_self
    exact (of_mem_scanLines member).1

/-- A fault is decided by the text up to the end of the line that it names. -/
theorem compile_append_error (refused : compile file (p ++ q) = .error error)
    (ended : EndedLines error.line p.toList) (filled : q ≠ "") (other : String) :
    compile file (p ++ other) = .error error := by
  obtain ⟨fault, found, rfl⟩ := compile_eq_error.1 refused
  obtain ⟨texts, size, same⟩ := ended.sourceLines (line_pos found)
  dsimp only at size
  have body (rest : String) : bodyTokens (p ++ rest) =
      scanLines 1 texts ++ scanLines (1 + fault.line) (lines (unifyLineBreaks rest.toList)) := by
    rw [bodyTokens, same, scanLines_append, size]
  refine compile_eq_error.2 ⟨fault, ?_, rfl⟩
  obtain here | ⟨front, token, behind, split, here, anyway⟩ := faults_ruleOf _ found
  · -- The source ends on a later line.
    have later : 0 < (lines (unifyLineBreaks q.toList)).length :=
      List.length_pos_iff.2 (lines_unifyLineBreaks_ne_nil (by simpa using filled))
    have last : (endToken (p ++ q)).line = max 1 (sourceLines (p ++ q)).length := rfl
    rw [same, List.length_append] at last
    omega
  · have apart : token ∉ scanLines (1 + fault.line) (lines (unifyLineBreaks q.toList)) := by
      intro member
      have bound := (of_mem_scanLines member).1
      omega
    rw [body] at split
    obtain ⟨between, -, left⟩ | ⟨between, first, left⟩ := List.append_eq_append_iff.1 split
    · exact absurd (left ▸ List.mem_append_cons_self) apart
    · cases between with
      | nil =>
        rw [List.nil_append] at left
        exact absurd (left ▸ List.mem_cons_self) apart
      | cons a more =>
        obtain ⟨rfl, -⟩ := List.cons.inj left
        rw [body, first, List.append_assoc, List.cons_append]
        exact anyway _ _

/-- A rule file whose fourth line goes on with an `and` from the line before, and asks for nothing. -/
def unfinished : String := "rule: error\nextensions: htm\nwhen: child p and\n  and-text q\n"

theorem compile_unfinished :
    compile "r.txt" (unfinished ++ "test: fail\nmessage: m") =
        .error ⟨"r.txt", 4, .unknownPredicate "and-text"⟩ ∧
      compile "r.txt" (unfinished ++ "") = .error ⟨"r.txt", 4, .unknownPredicate "and-text"⟩ := by
  have refused : compile "r.txt" (unfinished ++ "test: fail\nmessage: m") =
      .error ⟨"r.txt", 4, .unknownPredicate "and-text"⟩ := by decide +kernel
  have ended : EndedLines 4 unfinished.toList :=
    @EndedLines.next 3 "rule: error".toList _ (by decide)
      (@EndedLines.next 2 "extensions: htm".toList _ (by decide)
        (@EndedLines.next 1 "when: child p and".toList _ (by decide)
          (@EndedLines.next 0 "  and-text q".toList _ (by decide) .none)))
  exact ⟨refused, compile_append_error refused ended (by decide) ""⟩

end Sources

end TopicLint.Rule
