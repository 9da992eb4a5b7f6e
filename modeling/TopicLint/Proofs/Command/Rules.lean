import TopicLint.Command.Run
import TopicLint.Proofs.Rule.Directory

/-! Runs and the rules that they use. The rules of a directory are loaded before anything is printed, so
a rule file that cannot be used stops a run whatever it is asked for. -/

namespace TopicLint.Command

open RuleDirectory

variable {around : Surroundings} {options : Options} {config : Config} {directory : String}

theorem rulesOf_eq_error {error : RuleError} (used : rulesDirectory around config = .ok directory)
    (spoiled : load around.disk directory = .error error) :
    ∃ cause, rulesOf around config = .error cause := by
  unfold rulesOf
  rw [used]
  dsimp only [bind, Except.bind]
  rw [spoiled]
  cases error <;> exact ⟨_, rfl⟩

/-- Without rules nothing is done, also if they are only to be shown. -/
theorem perform_eq_error {cause : String} (configured : configOf around options = .ok config)
    (failed : rulesOf around config = .error cause) : perform around options = .error cause := by
  unfold perform
  rw [configured]
  show (rulesOf around config >>= _) = _
  rw [failed]
  rfl

theorem run_of_failure {arguments : List String} {cause : String}
    (given : readOptions around.env arguments = .ok options)
    (failed : perform around options = .error cause) :
    (run around arguments).code = 2 ∧ (run around arguments).output = "" := by
  unfold run
  rw [given]
  dsimp only
  rw [failed]
  exact ⟨rfl, rfl⟩

/-- A rule file that cannot be used stops the whole run. The files of a directory are taken in the order
of their paths; there are rules just if there is a file and each one states a rule, and then the book
has these rules, named after their files; or else the first file that cannot be used is the error,
whatever is behind it. A run that uses a directory with such a file says so and prints nothing, whatever
else it is asked for. -/
theorem spoiled_run {disk : Disk} {paths : List String} (found : files disk directory = .ok paths) :
    paths.Pairwise (fun one other => Path.atMost one other = true) ∧
    (∀ book, load disk directory = .ok book ↔ paths ≠ [] ∧
      List.Forall₂ (States disk) paths book.rules ∧ book = RuleBook.ofRules book.rules) ∧
    (∀ book, load disk directory = .ok book →
      book.rules.map (fun rule => some rule.source) = paths.map Path.fileName) ∧
    (paths ≠ [] → ∀ error, load disk directory = .error error ↔
      ∃ front path rest, paths = front ++ path :: rest ∧
        (∀ earlier ∈ front, ∃ rule, States disk earlier rule) ∧ Spoils disk path error) ∧
    ∀ path ∈ paths, ∀ error, Spoils disk path error →
      ∀ around arguments options config, around.disk = disk →
        readOptions around.env arguments = .ok options → configOf around options = .ok config →
        rulesDirectory around config = .ok directory →
          (run around arguments).code = 2 ∧ (run around arguments).output = "" := by
  refine ⟨sorted_files found, fun book => load_eq_ok_iff found, ?_, fun filled error =>
    load_eq_error_iff found filled, ?_⟩
  · intro book loaded
    exact sources_of_states ((load_eq_ok_iff found).1 loaded).2.1
  · rintro path member error spoils around arguments options config rfl given configured used
    obtain ⟨first, failed⟩ := load_of_spoils found member spoils
    obtain ⟨cause, refused⟩ := rulesOf_eq_error used failed
    exact run_of_failure given (perform_eq_error configured refused)

/-- A directory with a rule, with a file that states none, and with one that cannot be read. -/
def mixed : Disk where
  root := .directory "r"
    (.file "a_rule.txt" (some "rule: error\nextensions: htm\nwhen: self p\ntest: fail\nmessage: m")
      (.file "b_rule.txt" (some "rule: fatal\n") (.file "c_rule.txt" none .nil)))
    .nil
  workingDirectory := []

def mixedAround : Surroundings where
  disk := mixed
  env := fun _ => none
  terminal := false

/-- What `-r /r --list-rules -i b_rule.txt` asks for. -/
def shown : Options := { rules := some "/r", listRules := true, ignore := ["b_rule.txt"] }

/-- The rules are not even shown, although the file that states none is to be left out. -/
theorem spoiled_run_mixed :
    load mixed "/r" = .error (.faulty ⟨"b_rule.txt", 1, .unknownRuleType "fatal"⟩) ∧
      (run mixedAround ["-r", "/r", "--list-rules", "-i", "b_rule.txt"]).code = 2 ∧
      (run mixedAround ["-r", "/r", "--list-rules", "-i", "b_rule.txt"]).output = "" := by
  have searched : Search.find mixed (Path.join "/r" filePattern) =
      some ["/r/a_rule.txt", "/r/b_rule.txt", "/r/c_rule.txt"] := by
    have whole : Wildcard.read (Path.join "/r" filePattern).toList =
        some ("/r/".toList.map .char ++ .many :: "rule.txt".toList.map .char) := by decide +kernel
    have read : (Search.pieces (Path.join "/r" filePattern).toList).mapM Wildcard.read =
        some [[.char 'r'], .many :: "rule.txt".toList.map .char] := by decide +kernel
    have entries : Search.descend mixed [[.char 'r'], .many :: "rule.txt".toList.map .char] "/" =
        ["/r/a_rule.txt", "/r/b_rule.txt", "/r/c_rule.txt"] := by decide +kernel
    rw [Search.find_eq whole read, if_pos (by decide +kernel), entries,
      List.mergeSort_of_pairwise (by decide +kernel)]
  have found : files mixed "/r" = .ok ["/r/a_rule.txt", "/r/b_rule.txt", "/r/c_rule.txt"] := by
    have kept : ["/r/a_rule.txt", "/r/b_rule.txt", "/r/c_rule.txt"].filter mixed.isFile =
        ["/r/a_rule.txt", "/r/b_rule.txt", "/r/c_rule.txt"] := by decide +kernel
    unfold files
    rw [searched, if_pos (by decide +kernel)]
    exact congrArg Except.ok kept
  have states : States mixed "/r/a_rule.txt"
      { source := "a_rule.txt", description := none, severity := .error, extensions := ["htm"]
        condition := ⟨[[⟨false, .along .self (.present "p")⟩]]⟩, test := ⟨[[⟨false, .fail⟩]]⟩
        message := "m" } :=
    ⟨"rule: error\nextensions: htm\nwhen: self p\ntest: fail\nmessage: m", "a_rule.txt", by decide +kernel,
      by decide +kernel, by decide +kernel⟩
  have spoils : Spoils mixed "/r/b_rule.txt" (.faulty ⟨"b_rule.txt", 1, .unknownRuleType "fatal"⟩) := by
    apply @Spoils.faulty mixed _ "rule: fatal\n" "b_rule.txt"
    · decide +kernel
    · decide +kernel
    · decide +kernel
  have given : readOptions mixedAround.env ["-r", "/r", "--list-rules", "-i", "b_rule.txt"] = .ok shown := by
    decide +kernel
  have configured : configOf mixedAround shown =
      .ok { Config.standard with rulesDir := some "/r", disabledRules := ["b_rule.txt"] } := by
    have start : startDirectory mixedAround shown = "/" := by decide +kernel
    have nothing : Config.nearestFile mixedAround.disk "/" = none := by decide +kernel
    have unset : shown.config = none := rfl
    unfold configOf baseConfig
    rw [unset, start, Config.find, nothing]
    rfl
  obtain ⟨-, -, -, fails, stops⟩ := spoiled_run found
  constructor
  · apply (fails (List.cons_ne_nil _ _) _).2
    refine ⟨["/r/a_rule.txt"], "/r/b_rule.txt", ["/r/c_rule.txt"], rfl, ?_, spoils⟩
    intro path member
    rw [List.mem_singleton.1 member]
    exact ⟨_, states⟩
  · exact stops "/r/b_rule.txt" (by decide) _ spoils _ _ _ _ rfl given configured rfl

end TopicLint.Command
