import TopicLint.Command.Run
import TopicLint.Proofs.Lint.Findings
import TopicLint.Proofs.Lint.Schedule

/-! Stricter configurations. One that disables more rules, or reports graver findings only, tells a part
of what the other one tells, in the same order; and what it takes for grave changes neither the number
of files nor what is said about files that are not well-formed. -/

namespace TopicLint

/-- A configuration that differs from another one at most in that it disables more rules and reports
graver findings only. -/
structure Config.Stricter (config strict : Config) : Prop where
  elsewhere : strict = { config with
    disabledRules := strict.disabledRules, minSeverity := strict.minSeverity }
  disables : config.disabledRules ⊆ strict.disabledRules
  graver : strict.minSeverity.atLeast config.minSeverity = true

/-- Whether a configuration leaves a finding of a rule in. -/
def Config.lets (config : Config) (diagnostic : Diagnostic) : Bool :=
  config.enables diagnostic.source && config.reports diagnostic.severity

/-- Whether a finding is grave enough for a configuration. -/
def Config.grave (config : Config) (diagnostic : Diagnostic) : Bool := config.reports diagnostic.severity

/-- Whether a finding is about a file that is not well-formed. -/
def Diagnostic.isUnparsable (diagnostic : Diagnostic) : Bool :=
  diagnostic == Diagnostic.unparsable diagnostic.file

/-- The report with the findings that are good. -/
def Report.only (good : Diagnostic → Bool) (report : Report) : Report :=
  { report with diagnostics := report.diagnostics.filter good }

namespace Report

variable (good : Diagnostic → Bool)

theorem only_concat (reports : List Report) :
    (concat reports).only good = concat (reports.map (only good)) := by
  induction reports with
  | nil => rfl
  | cons report rest ih =>
    rw [List.map_cons, concat_cons, concat_cons, ← ih]
    simp [only, append]

theorem only_sort (report : Report) : report.sort.only good = (report.only good).sort := by
  simp only [sort, only]
  rw [filter_mergeSort_comm inOrder_total inOrder_trans]

end Report

section Settings

variable {config strict : Config}

theorem Severity.atLeast_trans {first second third : Severity} (one : first.atLeast second = true)
    (two : second.atLeast third = true) : first.atLeast third = true := by
  cases first <;> cases second <;> cases third <;> simp_all [Severity.atLeast]

theorem Config.Stricter.enables (stricter : config.Stricter strict) {source : String}
    (enabled : strict.enables source = true) : config.enables source = true := by
  have unlisted : source ∉ strict.disabledRules := by simpa [Config.enables] using enabled
  have absent : source ∉ config.disabledRules := fun listed => unlisted (stricter.disables listed)
  simpa [Config.enables] using absent

theorem Config.Stricter.reports (stricter : config.Stricter strict) {severity : Severity}
    (reported : strict.reports severity = true) : config.reports severity = true :=
  Severity.atLeast_trans reported stricter.graver

/-- What `--quiet` does is to make the configuration stricter. -/
theorem Config.stricter_quiet (config : Config) (options : Command.Options) :
    (config.override options.overrides).Stricter
      (config.override { options with quiet := true }.overrides) where
  elsewhere := rfl
  disables := fun _ listed => listed
  graver := rfl

end Settings

namespace Linter

variable {config strict : Config}

theorem ofBook_ofRules (book : RuleBook) (config : Config) :
    ofBook (RuleBook.ofRules book.rules) config = ofBook book config := by
  rw [ofBook, RuleBook.retain, RuleBook.rules_ofRules]
  rfl

section Documents

variable (doc : Document) (path : String)

/-- What a rule tells under a stricter configuration is what that one leaves in. -/
theorem replicate_stricter (stricter : config.Stricter strict) (node : Node) (rule : Rule) :
    let finding := Diagnostic.ofNode doc rule.source rule.severity rule.message path node
    List.replicate (tellings strict doc path node rule) finding =
      (List.replicate (tellings config doc path node rule) finding).filter strict.lets := by
  intro finding
  have judged : strict.lets finding = (strict.enables rule.source && strict.reports rule.severity) := rfl
  rw [List.filter_replicate, judged]
  by_cases left : (strict.enables rule.source && strict.reports rule.severity) = true
  · obtain ⟨enabled, reported⟩ := Bool.and_eq_true_iff.1 left
    have same : tellings strict doc path node rule = tellings config doc path node rule := by
      rw [tellings, tellings, enabled, reported, stricter.enables enabled, stricter.reports reported]
    rw [if_pos left, same]
  · rw [if_neg left, tellings_eq_zero strict doc path node rule, List.replicate_zero]
    intro due
    exact left (Bool.and_eq_true_iff.2 ⟨due.enabled, due.reported⟩)

theorem lintDocument_filter (stricter : config.Stricter strict) (book : RuleBook) :
    (ofBook book strict).lintDocument doc path =
      ((ofBook book config).lintDocument doc path).filter strict.lets := by
  rw [← ofBook_ofRules book strict, ← ofBook_ofRules book config, lintDocument, lintDocument,
    List.filter_flatMap]
  congr
  funext node
  rw [findings_ofBook, findings_ofBook, List.filter_flatMap]
  congr
  funext rule
  exact replicate_stricter doc path stricter node rule

/-- Rules that are disabled tell nothing. -/
theorem enables_of_mem_lintDocument {book : RuleBook} {diagnostic : Diagnostic}
    (member : diagnostic ∈ (ofBook book config).lintDocument doc path) :
    config.enables diagnostic.source = true := by
  rw [← ofBook_ofRules book config] at member
  obtain ⟨node, -, told⟩ := List.mem_flatMap.1 member
  rw [findings_ofBook] at told
  obtain ⟨rule, -, repeated⟩ := List.mem_flatMap.1 told
  obtain ⟨counted, rfl⟩ := List.mem_replicate.1 repeated
  by_cases due : Due config doc path node rule
  · exact due.enabled
  · exact absurd (tellings_eq_zero config doc path node rule due) counted

end Documents

section Graver

variable (stricter : config.Stricter strict) (same : strict.disabledRules = config.disabledRules)
  (book : RuleBook) (read : String → Option String) (language path : String)

include stricter same

/-- Where both disable the same rules, only the severities of findings count. -/
theorem lintDocument_graver (doc : Document) :
    (ofBook book strict).lintDocument doc path =
      ((ofBook book config).lintDocument doc path).filter strict.grave := by
  rw [lintDocument_filter doc path stricter]
  apply List.filter_congr
  intro diagnostic member
  have enabled : strict.enables diagnostic.source = true := by
    rw [Config.enables, same]
    exact enables_of_mem_lintDocument doc path member
  rw [Config.lets, enabled, Bool.true_and, Config.grave]

theorem lintText_graver (text : Option String) :
    (ofBook book strict).lintText language path text =
      ((ofBook book config).lintText language path text).filter strict.grave := by
  unfold lintText
  split
  · exact lintDocument_graver stricter same book path _
  · rfl

/-- Which files are looked at does not depend on the severities. -/
theorem lintFile_graver :
    (ofBook book strict).lintFile read language path =
      ((ofBook book config).lintFile read language path).only strict.grave := by
  have books : (ofBook book strict).book = (ofBook book config).book := by
    simp only [ofBook, Config.enables, same]
  unfold lintFile
  rw [books]
  split
  · rfl
  · rw [lintText_graver stricter same]
    rfl

theorem lintFiles_graver (paths : List String) :
    (ofBook book strict).lintFiles read language paths =
      ((ofBook book config).lintFiles read language paths).only strict.grave := by
  rw [lintFiles, lintFiles, Report.only_sort, Report.only_concat, List.map_map]
  congr
  funext path
  exact lintFile_graver stricter same book read language path

end Graver

/-- What is said about files that are not well-formed is grave enough for any configuration. -/
theorem filter_isUnparsable (diagnostics : List Diagnostic) :
    (diagnostics.filter config.grave).filter (·.isUnparsable) = diagnostics.filter (·.isUnparsable) := by
  rw [List.filter_filter]
  apply List.filter_congr
  intro diagnostic _
  apply Bool.and_eq_left_iff_imp.2
  intro unparsable
  rw [eq_of_beq unparsable]
  rfl

/-- A stricter configuration leaves out findings and does nothing else: on a document it tells what the
other one tells, less what it disables or does not report, in the same order. With the same rules
disabled this holds of files as well, whatever way the runs take; as many files are looked at, and the
findings about files that are not well-formed all stay. -/
theorem tells_less (stricter : config.Stricter strict) (book : RuleBook) :
    (∀ doc path, (ofBook book strict).lintDocument doc path =
      ((ofBook book config).lintDocument doc path).filter fun diagnostic =>
        strict.enables diagnostic.source && strict.reports diagnostic.severity) ∧
    (strict.disabledRules = config.disabledRules → ∀ read language paths report,
      (ofBook book config).Runs read language paths report →
        (∀ other, (ofBook book strict).Runs read language paths other ↔ other =
          ⟨report.diagnostics.filter fun diagnostic => strict.reports diagnostic.severity, report.files⟩) ∧
        ∀ other, (ofBook book strict).Runs read language paths other →
          other.diagnostics.filter (·.isUnparsable) = report.diagnostics.filter (·.isUnparsable)) := by
  constructor
  · intro doc path
    exact lintDocument_filter doc path stricter book
  · intro same read language paths report runs
    have ends (other : Report) : (ofBook book strict).Runs read language paths other ↔
        other = report.only strict.grave := by
      rw [runs_iff, lintFiles_graver stricter same, (runs_iff _ read language).1 runs]
    refine ⟨ends, fun other runs' => ?_⟩
    rw [(ends other).1 runs']
    exact filter_isUnparsable report.diagnostics

/-- A rule that warns of paragraphs, and one that finds fault with them. -/
def doubled : RuleBook :=
  let rule (source : String) (severity : Severity) : Rule := {
    source, description := none, severity, extensions := ["htm"]
    condition := ⟨[[⟨false, .along .self (.present "p")⟩]]⟩, test := ⟨[[⟨false, .fail⟩]]⟩
    message := "No paragraphs." }
  RuleBook.ofRules [rule "w.txt" .warning, rule "e.txt" .error]

/-- Of two findings and a file that is not well-formed, `--quiet` leaves one finding and the file. -/
theorem tells_less_quiet :
    let config := Config.standard.override (Command.Options.overrides {})
    let quiet := Config.standard.override (Command.Options.overrides { quiet := true })
    let read := fun path => if path = "b.htm" then some "<p/>" else none
    config.Stricter quiet ∧ quiet.disabledRules = config.disabledRules ∧
      ∃ report other, (ofBook doubled config).Runs read "en-us" ["a.htm", "b.htm"] report ∧
        (ofBook doubled quiet).Runs read "en-us" ["a.htm", "b.htm"] other ∧
        report.diagnostics.map (·.source) = ["xml-parse", "w.txt", "e.txt"] ∧
        other.diagnostics.map (·.source) = ["xml-parse", "e.txt"] := by
  intro config quiet read
  have stricter : config.Stricter quiet := Config.standard.stricter_quiet {}
  refine ⟨stricter, rfl, _, _, (runs_iff _ _ _).2 rfl,
    ((tells_less stricter doubled).2 rfl read "en-us" _ _ ((runs_iff _ _ _).2 rfl)).1 _ |>.2 rfl, ?_, ?_⟩
  · rw [lintFiles, Report.sort, List.mergeSort_of_pairwise (by decide +kernel)]
    decide +kernel
  · rw [lintFiles, Report.sort, List.mergeSort_of_pairwise (by decide +kernel)]
    decide +kernel

end Linter

end TopicLint
