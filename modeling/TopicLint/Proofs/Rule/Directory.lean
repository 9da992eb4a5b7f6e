import Mathlib.Data.List.Forall2
import TopicLint.Rule.Directory
import TopicLint.Proofs.Files.Search
import TopicLint.Proofs.Rule.Book
import TopicLint.Proofs.Rule.Derivation

/-! Loading rule directories. A directory has a rule for each of its rule files, in the order of their
paths and named after them, or else the fault of the first file that cannot be used. -/

namespace TopicLint.RuleDirectory

section Traversals

variable {ε α β : Type} {f : α → Except ε β}

theorem mapM_eq_ok_iff {elements : List α} {results : List β} :
    elements.mapM f = .ok results ↔ List.Forall₂ (fun a b => f a = .ok b) elements results := by
  induction elements generalizing results with
  | nil => cases results <;> simp [pure, Except.pure]
  | cons a rest ih =>
    rw [List.mapM_cons, Rule.bind_eq_ok, List.forall₂_cons_left_iff]
    constructor
    · rintro ⟨b, first, read⟩
      obtain ⟨others, later, same⟩ := Rule.bind_eq_ok.1 read
      cases same
      exact ⟨b, others, first, ih.1 later, rfl⟩
    · rintro ⟨b, others, first, later, rfl⟩
      exact ⟨b, first, Rule.bind_eq_ok.2 ⟨others, ih.2 later, rfl⟩⟩

theorem mapM_cons_eq_error {a : α} {rest : List α} {error : ε} :
    (a :: rest).mapM f = .error error ↔
      f a = .error error ∨ (∃ b, f a = .ok b) ∧ rest.mapM f = .error error := by
  rw [List.mapM_cons]
  cases f a with
  | error fault => simp [bind, Except.bind]
  | ok b => cases rest.mapM f <;> simp [bind, Except.bind, pure, Except.pure]

/-- The first element that fails is the one that counts. -/
theorem mapM_eq_error_iff {elements : List α} {error : ε} :
    elements.mapM f = .error error ↔ ∃ front a rest, elements = front ++ a :: rest ∧
      (∀ earlier ∈ front, ∃ result, f earlier = .ok result) ∧ f a = .error error := by
  induction elements with
  | nil => simp [pure, Except.pure]
  | cons a rest ih =>
    rw [mapM_cons_eq_error, ih]
    constructor
    · rintro (refused | ⟨fine, front, b, others, rfl, earlier, refused⟩)
      · exact ⟨[], a, rest, rfl, by simp, refused⟩
      · exact ⟨a :: front, b, others, rfl, List.forall_mem_cons.2 ⟨fine, earlier⟩, refused⟩
    · rintro ⟨front, b, others, split, earlier, refused⟩
      cases front with
      | nil =>
        cases split
        exact .inl refused
      | cons _ front =>
        cases split
        obtain ⟨fine, earlier⟩ := List.forall_mem_cons.1 earlier
        exact .inr ⟨fine, front, b, others, rfl, earlier, refused⟩

theorem exists_of_mem {R : α → β → Prop} {one : List α} {two : List β} (all : List.Forall₂ R one two)
    {a : α} (member : a ∈ one) : ∃ b, R a b := by
  induction all with
  | nil => cases member
  | cons first _ ih =>
    rcases List.mem_cons.1 member with rfl | later
    · exact ⟨_, first⟩
    · exact ih later

end Traversals

section Files

variable {disk : Disk} {directory path : String} {paths : List String} {rule : Rule} {error : RuleError}

/-- The file at a path states a rule, which is named after the file. -/
def States (disk : Disk) (path : String) (rule : Rule) : Prop :=
  ∃ text name, disk.read path = some text ∧ Path.fileName path = some name ∧
    Rule.compile name text = .ok rule

/-- The file at a path cannot be read, or what it states is no rule. -/
inductive Spoils (disk : Disk) (path : String) : RuleError → Prop where
  | unreadable (missing : disk.read path = none) : Spoils disk path (.unreadable path)
  | faulty {text name : String} {error : Rule.CompileError} (read : disk.read path = some text)
      (named : Path.fileName path = some name) (refused : Rule.compile name text = .error error) :
      Spoils disk path (.faulty error)

theorem States.named (states : States disk path rule) : Path.fileName path = some rule.source := by
  obtain ⟨text, name, -, named, compiled⟩ := states
  rw [named, ((Rule.ruleOf_eq_ok _).1 (Rule.compile_eq_ok.1 compiled)).1]

theorem loadFile_eq_ok_iff (named : ∃ name, Path.fileName path = some name) :
    loadFile disk path = .ok rule ↔ States disk path rule := by
  obtain ⟨name, named⟩ := named
  unfold loadFile States
  rw [named]
  cases disk.read path with
  | none => simp
  | some text => cases compiled : Rule.compile name text <;> simp [Except.mapError, compiled]

theorem loadFile_eq_error_iff (named : ∃ name, Path.fileName path = some name) :
    loadFile disk path = .error error ↔ Spoils disk path error := by
  obtain ⟨name, named⟩ := named
  unfold loadFile
  rw [named]
  constructor
  · intro refused
    split at refused
    next missing =>
      cases refused
      exact .unreadable missing
    next text read =>
      cases compiled : Rule.compile name text with
      | ok rule =>
        rw [Option.getD_some, compiled] at refused
        cases refused
      | error fault =>
        rw [Option.getD_some, compiled] at refused
        cases refused
        exact .faulty read named compiled
  · intro spoils
    cases spoils with
    | unreadable missing => rw [missing]
    | faulty read named' refused =>
      cases named.symm.trans named'
      rw [read]
      dsimp only
      rw [Option.getD_some, refused]
      rfl

theorem files_eq_ok (found : files disk directory = .ok paths) :
    ∃ all, Search.find disk (Path.join directory filePattern) = some all ∧
      paths = all.filter disk.isFile := by
  unfold files at found
  split at found
  · split at found
    next all searched =>
      cases found
      exact ⟨all, searched, rfl⟩
    next => cases found
  next => cases found

/-- Rule files are in the order of their paths. -/
theorem sorted_files (found : files disk directory = .ok paths) :
    paths.Pairwise fun one other => Path.atMost one other = true := by
  obtain ⟨all, searched, rfl⟩ := files_eq_ok found
  unfold Search.find at searched
  obtain ⟨_, -, searched⟩ := Option.bind_eq_some_iff.1 searched
  obtain ⟨names, -, searched⟩ := Option.bind_eq_some_iff.1 searched
  cases searched
  exact (List.pairwise_mergeSort Path.atMost_trans Path.atMost_total _).filter _

theorem read_filePattern : Wildcard.read filePattern.toList =
    some (.many :: ("rule.tx".toList.map .char) ++ [.char 't']) := by decide +kernel

/-- Rule files have names. -/
theorem named_files (found : files disk directory = .ok paths) (member : path ∈ paths) :
    ∃ name, Path.fileName path = some name := by
  obtain ⟨all, searched, rfl⟩ := files_eq_ok found
  have plain : (filePattern.toList.all fun c => Path.isSlash c == false) = true := by decide
  have whole (c : Char) (member : c ∈ filePattern.toList) : Path.isSlash c = false :=
    eq_of_beq (List.all_eq_true.1 plain c member)
  obtain ⟨base, name, rfl, matched⟩ := Search.ends_of_mem_find (by decide) whole read_filePattern
    (by decide) (by decide) (by decide) searched (List.mem_filter.1 member).1
  obtain ⟨front, last⟩ := Wildcard.ends_of_isMatch matched
  obtain ⟨before, joined⟩ := Path.join_ends base name
  rw [last, ← List.append_assoc] at joined
  obtain ⟨name', named⟩ := Path.exists_fileName joined (by decide) (by decide)
  exact ⟨_, named⟩

theorem load_eq (found : files disk directory = .ok paths) (filled : paths ≠ []) :
    load disk directory = (paths.mapM (loadFile disk)).map RuleBook.ofRules := by
  have listed : paths.isEmpty = false := List.isEmpty_eq_false_iff.2 filled
  rw [load, found]
  show (if paths.isEmpty then _ else _) = _
  rw [listed, if_neg Bool.false_ne_true]
  cases paths.mapM (loadFile disk) <;> rfl

theorem load_of_nil (found : files disk directory = .ok []) :
    load disk directory = .error (.noRules directory) := by
  rw [load, found]
  rfl

theorem loadFiles_eq_ok_iff (named : ∀ path ∈ paths, ∃ name, Path.fileName path = some name)
    {rules : List Rule} :
    paths.mapM (loadFile disk) = .ok rules ↔ List.Forall₂ (States disk) paths rules := by
  have same (path : String) (rule : Rule) :
      (∃ name, Path.fileName path = some name) ∧ loadFile disk path = .ok rule ↔
        (∃ name, Path.fileName path = some name) ∧ States disk path rule :=
    and_congr_right fun named => loadFile_eq_ok_iff named
  calc paths.mapM (loadFile disk) = .ok rules
    _ ↔ List.Forall₂ (fun path rule => loadFile disk path = .ok rule) paths rules := mapM_eq_ok_iff
    _ ↔ List.Forall₂ (fun path rule =>
          (∃ name, Path.fileName path = some name) ∧ loadFile disk path = .ok rule) paths rules :=
      ((List.forall₂_and_left ..).trans (and_iff_right named)).symm
    _ ↔ List.Forall₂ (fun path rule =>
          (∃ name, Path.fileName path = some name) ∧ States disk path rule) paths rules := by
      simp only [same]
    _ ↔ List.Forall₂ (States disk) paths rules :=
      (List.forall₂_and_left ..).trans (and_iff_right named)

/-- A directory has the rules that its files state, or it has none at all. -/
theorem load_eq_ok_iff (found : files disk directory = .ok paths) {book : RuleBook} :
    load disk directory = .ok book ↔
      paths ≠ [] ∧ List.Forall₂ (States disk) paths book.rules ∧ book = RuleBook.ofRules book.rules := by
  by_cases empty : paths = []
  · subst empty
    simp [load_of_nil found]
  rw [load_eq found empty, ← loadFiles_eq_ok_iff fun _ => named_files found]
  constructor
  · intro loaded
    cases read : paths.mapM (loadFile disk) with
    | error fault =>
      rw [read] at loaded
      cases loaded
    | ok rules =>
      rw [read] at loaded
      cases loaded
      rw [RuleBook.rules_ofRules]
      exact ⟨empty, rfl, rfl⟩
  · rintro ⟨-, read, same⟩
    rw [read, Except.map, ← same]

/-- The first file that cannot be used spoils a directory, whatever is in the files behind it. -/
theorem load_eq_error_iff (found : files disk directory = .ok paths) (filled : paths ≠ []) :
    load disk directory = .error error ↔ ∃ front path rest, paths = front ++ path :: rest ∧
      (∀ earlier ∈ front, ∃ rule, States disk earlier rule) ∧ Spoils disk path error := by
  have refused : (paths.mapM (loadFile disk)).map RuleBook.ofRules = .error error ↔
      paths.mapM (loadFile disk) = .error error := by
    cases paths.mapM (loadFile disk) <;> simp [Except.map]
  rw [load_eq found filled, refused, mapM_eq_error_iff]
  refine exists_congr fun front => exists_congr fun path => exists_congr fun rest => and_congr_right ?_
  intro split
  have named (file : String) (member : file ∈ front ++ path :: rest) :=
    named_files found (split ▸ member)
  apply and_congr
  · exact forall₂_congr fun file member => exists_congr fun rule =>
      loadFile_eq_ok_iff (named file (List.mem_append_left _ member))
  · exact loadFile_eq_error_iff (named path List.mem_append_cons_self)

/-- One file that cannot be used is enough to spoil a directory. -/
theorem load_of_spoils (found : files disk directory = .ok paths) (member : path ∈ paths)
    (spoils : Spoils disk path error) : ∃ first, load disk directory = .error first := by
  cases loaded : load disk directory with
  | error first => exact ⟨first, rfl⟩
  | ok book =>
    obtain ⟨-, states, -⟩ := (load_eq_ok_iff found).1 loaded
    obtain ⟨rule, states⟩ := exists_of_mem states member
    have named := named_files found member
    have read := (loadFile_eq_ok_iff named).2 states
    rw [(loadFile_eq_error_iff named).2 spoils] at read
    cases read

/-- The rules of a directory are named after its files. -/
theorem sources_of_states {rules : List Rule} (states : List.Forall₂ (States disk) paths rules) :
    rules.map (fun rule => some rule.source) = paths.map Path.fileName := by
  induction states with
  | nil => rfl
  | cons first _ ih => rw [List.map_cons, List.map_cons, ih, first.named]

end Files

end TopicLint.RuleDirectory
