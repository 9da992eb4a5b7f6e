import TopicLint.Proofs.Rule.Locality

/-! Messages. What stands before the message decides all of a rule but the message, and the message is
the text behind its header, unless a later line of it starts like a section. -/

namespace TopicLint.Rule

section Lines

variable {start text : List Char}

theorem lines_append (unbroken : '\n' ∉ start) (filled : start ≠ []) (text : List Char) :
    lines (start ++ text) = (start ++ (lines text).headD []) :: (lines text).tail := by
  induction start with
  | nil => exact absurd rfl filled
  | cons c more ih =>
    obtain ⟨apart, inside⟩ := not_or.1 (List.mem_cons.not.1 unbroken)
    rw [List.cons_append, lines, if_neg (Ne.symm apart)]
    cases more with
    | nil =>
      rw [List.nil_append]
      cases lines text with
      | nil => rfl
      | cons line others => rfl
    | cons d rest =>
      rw [ih inside (List.cons_ne_nil d rest)]
      rfl

theorem opensSection_of_unified (opens : OpensSection (unifyLineBreaks text)) : OpensSection text := by
  obtain ⟨letters, rest, filled, good, split⟩ := opens
  suffices front : ∃ more, text = letters ++ ':' :: more from
    ⟨letters, front.choose, filled, good, front.choose_spec⟩
  clear filled
  induction letters generalizing text with
  | nil =>
    fun_cases unifyLineBreaks text with
    | case1 behind => cases split
    | case2 c behind apart =>
      rw [unifyLineBreaks.eq_2 _ _ apart] at split
      cases split
      exact ⟨behind, rfl⟩
    | case3 => cases split
  | cons letter letters ih =>
    obtain ⟨first, inside⟩ := List.forall_mem_cons.1 good
    fun_cases unifyLineBreaks text with
    | case1 behind =>
      rw [unifyLineBreaks] at split
      rw [← (List.cons.inj split).1] at first
      exact absurd first (by decide)
    | case2 c behind apart =>
      rw [unifyLineBreaks.eq_2 _ _ apart] at split
      obtain ⟨rfl, later⟩ := List.cons.inj split
      obtain ⟨more, rfl⟩ := ih inside later
      exact ⟨more, rfl⟩
    | case3 => cases split

theorem plain_unified {texts : List (List Char)} (plain : ∀ text ∈ texts, ¬OpensSection text) :
    ∀ text ∈ texts.map unifyLineBreaks, ¬OpensSection text := by
  intro text listed opens
  obtain ⟨given, member, rfl⟩ := List.mem_map.1 listed
  exact plain given member (opensSection_of_unified opens)

theorem unifyLineBreaks_opening {letters : List Char} (good : ∀ c ∈ letters, isLetter c = true)
    (rest : List Char) :
    unifyLineBreaks (letters ++ ':' :: rest) = letters ++ ':' :: unifyLineBreaks rest := by
  have unbroken : '\n' ∉ letters ++ [':'] := by
    intro member
    rcases List.mem_append.1 member with inside | last
    · exact absurd (good _ inside) (by decide)
    · exact absurd last (by decide)
  have whole : (letters ++ [':']).getLast? ≠ some '\r' := by
    rw [List.getLast?_concat]
    decide
  rw [List.append_cons, unifyLineBreaks_append unbroken whole, ← List.append_cons]

theorem endedLines_concat (text : List Char) :
    EndedLines ((text ++ ['\n']).count '\n') (text ++ ['\n']) := by
  induction text with
  | nil => exact @EndedLines.next 0 [] [] List.not_mem_nil .none
  | cons c more ih =>
    by_cases broken : c = '\n'
    · subst broken
      rw [List.cons_append, List.count_cons_self]
      exact @EndedLines.next _ [] _ List.not_mem_nil ih
    · rw [List.cons_append, List.count_cons_of_ne broken]
      generalize ends : more ++ ['\n'] = left at ih
      generalize left.count '\n' = count at ih
      cases ih with
      | none => exact absurd ends (List.concat_ne_nil _ _)
      | @next count body rest unbroken later =>
        exact @EndedLines.next _ (c :: body) _ (by simp [unbroken, Ne.symm broken]) later

end Lines

section Tokens

variable {line : Nat}

/-- Only the start of a line can be a header. -/
theorem isText_scanLine {column : Nat} (inside : 1 < column) (text : List Char) :
    Grammar.IsText (scanLine line column text) := by
  intro token member titled
  obtain ⟨-, bound, opening⟩ := of_mem_scanLine member
  have first := opening titled
  omega

theorem isText_scanLines {texts : List (List Char)} (plain : ∀ text ∈ texts, ¬OpensSection text) :
    Grammar.IsText (scanLines line texts) := by
  induction texts generalizing line with
  | nil => exact fun _ member => nomatch member
  | cons text more ih =>
    obtain ⟨first, later⟩ := List.forall_mem_cons.1 plain
    intro token member titled
    rcases List.mem_append.1 member with here | behind
    · exact first ((header_mem_scanLine_iff line).1 ⟨token, here, titled⟩)
    · exact ih later token behind titled

end Tokens

section Parts

variable {ending : Token} {file : String} {tokens text : List Token} {header : Token}
  {rule : TopicLint.Rule}

theorem lastText_of_isText (isText : Grammar.IsText tokens) :
    lastText tokens = .ok (Text.trim (String.ofList (wording tokens))) := by
  have all := isText_iff.1 isText
  rw [lastText, nextSection, List.dropWhile_eq_nil_iff.2 all, sectionText,
    List.takeWhile_eq_self_iff.2 all]
  rfl

theorem lastText_of_header {front behind : List Token} (isText : Grammar.IsText front)
    (titled : header.kind = .header) :
    lastText (front ++ header :: behind) = .error ⟨header.line, .sectionInMessage header⟩ := by
  rw [lastText, nextSection, (run_eq (isText_iff.1 isText) (stops_of_titled titled)).2]

/-- All of a rule but the message, up to the header of that. -/
def unworded (file : String) (ending : Token) : Parser TopicLint.Rule := do
  let description ← described
  let severity ← ruleType ending
  let extensions ← extensionList ending
  let condition ← expression ending "when:"
  let test ← expression ending "test:"
  toSection "message:" ending
  return { source := file, description, severity, extensions, condition, test, message := "" }

theorem local_unworded (file : String) : Local (unworded file) :=
  local_bind local_described fun _ =>
    local_bind local_ruleType fun _ =>
      local_bind local_extensionList fun _ =>
        local_bind (local_expression _) fun _ =>
          local_bind (local_expression _) fun _ =>
            local_bind (local_toSection _) fun _ => local_pure _

theorem bind_then {α β γ : Type} (first : Parser α) (next : α → Parser β)
    (after : β × List Token → Except Fault γ) (tokens : List Token) :
    ((first >>= next) tokens >>= after) =
      (first tokens >>= fun result => next result.1 result.2 >>= after) := by
  cases read : first tokens with
  | error fault =>
    rw [bind_of_fault read]
    rfl
  | ok result =>
    rw [bind_of_read read]
    rfl

/-- A rule is what stands before its message, with the message. -/
theorem ruleOf_eq_unworded (file : String) (tokens : List Token) : ruleOf ending file tokens =
    (unworded file ending tokens >>= fun read =>
      (lastText read.2.tail).map fun message => { read.1 with message }) := by
  unfold unworded
  rw [bind_then, comment_eq]
  show ruleOf ending file tokens = (ruleType ending >>= _) _ >>= _
  rw [bind_then]
  apply bind_congr
  intro severity
  rw [bind_then]
  apply bind_congr
  intro extensions
  rw [bind_then]
  apply bind_congr
  intro condition
  rw [bind_then]
  apply bind_congr
  intro ⟨test, rest⟩
  rw [bind_then, toSection_eq]
  dsimp only
  rw [messageText_eq_lastText]
  cases fromSection ending "message:" rest with
  | error fault => rfl
  | ok opening =>
    show lastText opening.tail >>= _ = (lastText opening.tail).map _
    cases lastText opening.tail with
    | error fault => rfl
    | ok message => rfl

theorem opens_of_unworded {opening : List Token} (read : unworded file ending tokens = .ok (rule, opening)) :
    ∃ header text, opening = header :: text ∧ header.kind = .header := by
  obtain ⟨_, _, -, read⟩ := bind_read read
  obtain ⟨_, _, -, read⟩ := bind_read read
  obtain ⟨_, _, -, read⟩ := bind_read read
  obtain ⟨_, _, -, read⟩ := bind_read read
  obtain ⟨_, _, -, read⟩ := bind_read read
  obtain ⟨_, rest, opens, read⟩ := bind_read read
  cases read
  rw [toSection_eq] at opens
  cases found : fromSection ending "message:" _ with
  | error fault =>
    rw [found] at opens
    cases opens
  | ok begun =>
    rw [found] at opens
    cases opens
    obtain ⟨header, text, -, titled, rfl⟩ := (fromSection_eq_ok ending).1 found
    exact ⟨header, text, rfl, titled.1⟩

theorem isText_of_lastText {message : String} (said : lastText tokens = .ok message) :
    Grammar.IsText tokens := by
  unfold lastText at said
  split at said
  next nothing => exact isText_iff.2 (List.dropWhile_eq_nil_iff.1 nothing)
  next => cases said

/-- A file that states a rule states the same rule but for the message, whatever stands behind the header
of the message. -/
theorem ruleOf_behind {front : List Token} (titled : header.kind = .header) (isText : Grammar.IsText text)
    (states : ruleOf ending file (front ++ header :: text) = .ok rule) (ending' : Token)
    (other : List Token) : ruleOf ending' file (front ++ header :: other) =
      (lastText other).map fun message => { rule with message } := by
  rw [ruleOf_eq_unworded] at states
  obtain ⟨⟨unsaid, opening⟩, read, said⟩ := bind_eq_ok.1 states
  obtain ⟨header', text', rfl, titled'⟩ := opens_of_unworded read
  obtain ⟨taken, split, anyway⟩ := (local_unworded file ending _).reads unsaid _ read
  dsimp only [List.tail_cons] at said
  cases last : lastText text' with
  | error fault =>
    rw [last] at said
    cases said
  | ok message =>
    rw [last] at said
    cases said
    obtain ⟨rfl, rfl, rfl⟩ := unique_message isText titled (isText_of_lastText last) titled' split
    rw [ruleOf_eq_unworded, anyway header rfl ending' (header :: other) rfl]
    rfl

end Parts

section Sources

variable {preface : String}

/-- The tokens of a message behind its header, which takes eight characters of the line. -/
def messageTokens (line : Nat) (message : String) : List Token :=
  let texts := lines (unifyLineBreaks message.toList)
  scanLine line 9 (texts.headD []) ++ scanLines (line + 1) texts.tail

theorem unifyLineBreaks_message (message : String) :
    unifyLineBreaks ("message:" ++ message).toList =
      "message:".toList ++ unifyLineBreaks message.toList := by
  rw [String.toList_append]
  exact unifyLineBreaks_append (by decide) (by decide) _

theorem scanLines_message (line : Nat) (message : String) :
    scanLines line (lines (unifyLineBreaks ("message:" ++ message).toList)) =
      ⟨.header, "message:", line, 1⟩ :: messageTokens line message := by
  have good : ∀ c ∈ "message".toList, isLetter c = true := List.all_eq_true.1 (by decide)
  rw [unifyLineBreaks_message, lines_append (by decide) (by decide), scanLines]
  exact congrArg (· ++ _) (scanLine_header line (by decide) good _)

theorem wording_messageTokens (line : Nat) (message : String) :
    wording (messageTokens line message) = unifyLineBreaks message.toList := by
  have whole := wording_scanLines line
    (divided_lines (unifyLineBreaks ("message:" ++ message).toList))
  rw [scanLines_message, flatten_lines, unifyLineBreaks_message, wording_cons] at whole
  exact List.append_cancel_left whole

theorem lines_tail_unifyLineBreaks (text : List Char) :
    (lines (unifyLineBreaks text)).tail = (lines text).tail.map unifyLineBreaks := by
  rw [lines_unifyLineBreaks, List.map_tail]

theorem isText_messageTokens {line : Nat} {message : String}
    (plain : ∀ text ∈ (lines message.toList).tail, ¬OpensSection text) :
    Grammar.IsText (messageTokens line message) := by
  intro token member
  rcases List.mem_append.1 member with first | later
  · exact isText_scanLine (by decide) _ token first
  · rw [lines_tail_unifyLineBreaks] at later
    exact isText_scanLines (plain_unified plain) token later

/-- The tokens of a source with a message. -/
theorem bodyTokens_message (ended : ∃ before, preface = before ++ "\n") :
    ∃ front, ∀ message, bodyTokens (preface ++ "message:" ++ message) =
      front ++ ⟨.header, "message:", preface.toList.count '\n' + 1, 1⟩ ::
        messageTokens (preface.toList.count '\n' + 1) message := by
  obtain ⟨before, rfl⟩ := ended
  have text : (before ++ "\n").toList = before.toList ++ ['\n'] := String.toList_append ..
  have ends : EndedLines ((before ++ "\n").toList.count '\n') (before ++ "\n").toList := by
    rw [text]
    exact endedLines_concat before.toList
  have positive : 0 < (before ++ "\n").toList.count '\n' := by
    rw [text]
    exact List.count_pos_iff.2 (List.mem_append_right _ List.mem_cons_self)
  obtain ⟨texts, size, same⟩ := ends.sourceLines positive
  refine ⟨scanLines 1 texts, fun message => ?_⟩
  rw [bodyTokens, String.append_assoc, same, scanLines_append, size, Nat.add_comm 1, scanLines_message]

/-- The first of some lines that starts like a section: the lines before it, and the letters before its
colon. -/
structure FirstOpens (texts before : List (List Char)) (letters : List Char) : Prop where
  split : ∃ rest later, texts = before ++ (letters ++ ':' :: rest) :: later
  plain : ∀ text ∈ before, ¬OpensSection text
  filled : letters ≠ []
  good : ∀ c ∈ letters, isLetter c = true

theorem exists_firstOpens {texts : List (List Char)} (opens : ∃ text ∈ texts, OpensSection text) :
    ∃ before letters, FirstOpens texts before letters := by
  induction texts with
  | nil =>
    obtain ⟨_, member, -⟩ := opens
    cases member
  | cons first more ih =>
    by_cases here : OpensSection first
    · obtain ⟨letters, rest, filled, good, rfl⟩ := here
      exact ⟨[], letters, ⟨rest, more, rfl⟩, List.forall_mem_nil _, filled, good⟩
    · obtain ⟨text, member, opens⟩ := opens
      have later : text ∈ more := (List.mem_cons.1 member).resolve_left fun same => here (same ▸ opens)
      obtain ⟨before, letters, ⟨rest, behind, rfl⟩, plain, filled, good⟩ := ih ⟨text, later, opens⟩
      exact ⟨first :: before, letters, ⟨rest, behind, rfl⟩, List.forall_mem_cons.2 ⟨here, plain⟩, filled, good⟩

/-- Behind the header of a message, the line that starts like a section starts with a header. -/
theorem messageTokens_of_firstOpens {message : String} {before : List (List Char)} {letters : List Char}
    (first : FirstOpens (lines message.toList).tail before letters) (line : Nat) :
    ∃ front behind, Grammar.IsText front ∧ messageTokens line message =
      front ++ ⟨.header, String.ofList (letters ++ [':']), line + 1 + before.length, 1⟩ :: behind := by
  obtain ⟨⟨rest, later, split⟩, plain, filled, good⟩ := first
  have parted : (lines (unifyLineBreaks message.toList)).tail = before.map unifyLineBreaks ++
      (letters ++ ':' :: unifyLineBreaks rest) :: later.map unifyLineBreaks := by
    rw [lines_tail_unifyLineBreaks, split, List.map_append, List.map_cons, unifyLineBreaks_opening good]
  rw [messageTokens, parted, scanLines_append, List.length_map, scanLines, scanLine_header _ filled good,
    List.cons_append, ← List.append_assoc]
  refine ⟨_, _, fun token member => ?_, rfl⟩
  rcases List.mem_append.1 member with inside | between
  · exact isText_scanLine (by decide) _ token inside
  · exact isText_scanLines (plain_unified plain) token between

/-- A file that compiles up to its message compiles with any message, which is kept as it is written but for
its line breaks and the blanks around it, if no line of it but the first starts like a section. Otherwise the
first such line is where the file fails. -/
theorem compile_message {file : String} {rule : TopicLint.Rule} (ended : ∃ before, preface = before ++ "\n")
    (compiles : compile file (preface ++ "message: x") = .ok rule) (message : String) :
    ((∀ text ∈ (lines message.toList).tail, ¬OpensSection text) →
      ∃ kept, Unified message.toList kept ∧ compile file (preface ++ "message:" ++ message) =
        .ok { rule with message := Text.trim (String.ofList kept) }) ∧
    ((∃ text ∈ (lines message.toList).tail, OpensSection text) → ∃ before letters,
      FirstOpens (lines message.toList).tail before letters ∧
      let line := preface.toList.count '\n' + 2 + before.length
      compile file (preface ++ "message:" ++ message) = .error
        ⟨file, line, .sectionInMessage ⟨.header, String.ofList (letters ++ [':']), line, 1⟩⟩) := by
  obtain ⟨front, body⟩ := bodyTokens_message ended
  have begun : preface ++ "message: x" = preface ++ "message:" ++ " x" := by
    rw [String.append_assoc]
    rfl
  have isText : Grammar.IsText (messageTokens (preface.toList.count '\n' + 1) " x") :=
    isText_messageTokens (by decide +kernel)
  rw [begun, compile_eq_ok, body] at compiles
  have behind := ruleOf_behind rfl isText compiles
  constructor
  · intro plain
    refine ⟨_, unified_iff.2 rfl, ?_⟩
    rw [compile_eq_ok, body, behind, lastText_of_isText (isText_messageTokens plain), wording_messageTokens]
    rfl
  · intro opens
    obtain ⟨before, letters, first⟩ := exists_firstOpens opens
    obtain ⟨within, later, text, split⟩ := messageTokens_of_firstOpens first (preface.toList.count '\n' + 1)
    refine ⟨before, letters, first, compile_eq_error.2 ⟨⟨_, .sectionInMessage _⟩, ?_, rfl⟩⟩
    rw [body, behind, split, lastText_of_header text rfl]
    rfl

/-- A message with lines that only look like sections, and one with a section behind its second line. -/
theorem compile_message_lookalikes :
    let preface := "rule: error\nextensions: htm\nwhen: self p\ntest: fail\n"
    let rule (message : String) : TopicLint.Rule :=
      { source := "r.txt", description := none, severity := .error, extensions := ["htm"]
        condition := ⟨[[⟨false, .along .self (.present "p")⟩]]⟩, test := ⟨[[⟨false, .fail⟩]]⟩, message }
    compile "r.txt" (preface ++ "message: x") = .ok (rule "x") ∧
      compile "r.txt" (preface ++ "message:" ++ "test: \"it\r\n test:\n\n1st: é\\n ") =
        .ok (rule "test: \"it\n test:\n\n1st: é\\n") ∧
      ∃ before letters, FirstOpens ["it\r\n".toList, "note: x\n".toList, "when: y".toList] before letters ∧
        compile "r.txt" (preface ++ "message:" ++ " say\nit\r\nnote: x\nwhen: y") = .error
          ⟨"r.txt", 6 + before.length,
            .sectionInMessage ⟨.header, String.ofList (letters ++ [':']), 6 + before.length, 1⟩⟩ := by
  intro preface rule
  have ended : ∃ before, preface = before ++ "\n" :=
    ⟨"rule: error\nextensions: htm\nwhen: self p\ntest: fail", by decide⟩
  have compiles : compile "r.txt" (preface ++ "message: x") = .ok (rule "x") := by decide +kernel
  obtain ⟨text, unified, kept⟩ :=
    (compile_message ended compiles "test: \"it\r\n test:\n\n1st: é\\n ").1 (by decide +kernel)
  have refused := (compile_message ended compiles " say\nit\r\nnote: x\nwhen: y").2 (by decide +kernel)
  have trimmed : Text.trim (String.ofList (unifyLineBreaks
      "test: \"it\r\n test:\n\n1st: é\\n ".toList)) = "test: \"it\n test:\n\n1st: é\\n" := by
    decide +kernel
  have breaks : preface.toList.count '\n' = 4 := by decide +kernel
  have texts : (lines " say\nit\r\nnote: x\nwhen: y".toList).tail =
      ["it\r\n".toList, "note: x\n".toList, "when: y".toList] := by decide +kernel
  rw [unified_iff.1 unified, trimmed] at kept
  rw [breaks, texts] at refused
  exact ⟨compiles, kept, refused⟩

end Sources

end TopicLint.Rule
