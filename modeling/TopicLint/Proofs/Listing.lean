import Mathlib.Data.List.Forall2
import TopicLint.Project
import TopicLint.Rule.Directory
import TopicLint.Proofs.Files.Listing

/-! What is found in a directory: the rule files, and the project file. If the path of the directory means
as a pattern what it means as a path, these are the files there, in the order of their names. Else another
directory can be the one that is looked into. -/

namespace TopicLint

def Entry.isFile : Entry → Bool
  | .file _ => true
  | .directory _ => false

theorem Disk.isFile_eq (disk : Disk) (path : String) : disk.isFile path = (disk.look path).any Entry.isFile := by
  rw [Disk.isFile]
  cases disk.look path with
  | none => rfl
  | some entry => cases entry <;> rfl

namespace Search

variable {disk : Disk} {directory ending : String} {names : List String} {kind : Entry → Bool}

theorem Lists.filter (all : Lists disk directory ending (fun _ => true) names) :
    Lists disk directory ending kind
      (names.filter fun name => (disk.root.at? (disk.locate directory ++ [name])).any kind) := by
  refine ⟨all.sorted.filter _, fun name => ?_⟩
  rw [List.mem_filter, all.mem_iff, Option.any_eq_true_iff_get]
  constructor
  · rintro ⟨⟨ends, -⟩, there, fits⟩
    exact ⟨ends, _, (Option.some_get there).symm, fits⟩
  · rintro ⟨ends, entry, there, fits⟩
    rw [there]
    exact ⟨⟨ends, entry, rfl, rfl⟩, rfl, fits⟩

/-- What the rule files of a directory are, and which file its project file is. -/
structure Finds (disk : Disk) (directory : String) : Prop where
  ruleFiles : ∃ names paths, RuleDirectory.files disk directory = .ok paths ∧
    Lists disk directory "rule.txt" Entry.isFile names ∧ List.Forall₂ (Names disk directory) names paths
  projectFile : ∃ names, Lists disk directory ".flprj" (fun _ => true) names ∧
    (names = [] → Project.find disk directory = .error (.noFile directory)) ∧
    ∀ name others, names = name :: others →
      ∃ path, Project.find disk directory = .ok path ∧ Names disk directory name path

/-- By a path that is no pattern but for itself, the rule files and the project file are those of the
directory. -/
theorem finds_directory (tidy : disk.root.isTidy = true) (start : disk.isDirectory directory = true)
    (plain : IsPlain directory) : Finds disk directory := by
  obtain ⟨inside, found⟩ := Option.isSome_iff_exists.1 start
  constructor
  · have written : RuleDirectory.filePattern.toList = '*' :: "rule.txt".toList := by decide +kernel
    obtain ⟨base, names, searched, lists, leads⟩ := exists_lists tidy found plain written (by decide +kernel)
    have files : RuleDirectory.files disk directory = .ok ((names.filter fun name =>
        (disk.root.at? (disk.locate directory ++ [name])).any Entry.isFile).map (Path.join base)) := by
      have kept (name : String) (member : name ∈ names) : (disk.isFile ∘ Path.join base) name =
          (disk.root.at? (disk.locate directory ++ [name])).any Entry.isFile := by
        rw [Function.comp, Disk.isFile_eq, (leads name member).look]
      rw [RuleDirectory.files, if_pos start, searched, ← List.filter_congr kept, ← List.filter_map]
    refine ⟨_, _, files, lists.filter, List.forall₂_map_right_iff.2 (List.forall₂_same.2 ?_)⟩
    exact fun name member => leads name (List.mem_filter.1 member).1
  · have written : Project.filePattern.toList = '*' :: ".flprj".toList := by decide +kernel
    obtain ⟨base, names, searched, lists, leads⟩ := exists_lists tidy found plain written (by decide +kernel)
    refine ⟨names, lists, ?_, ?_⟩
    · rintro rfl
      rw [Project.find, searched]
      rfl
    · rintro name others rfl
      exact ⟨_, by rw [Project.find, searched]; rfl, leads name List.mem_cons_self⟩

/-- Two directories, one with a name that is a pattern of the other one's. -/
def bracketed : Disk where
  root := .directory "r[a]" (.file "x_rule.txt" (some "") (.file "M.flprj" (some "<p/>") .nil))
    (.directory "ra" (.file "y_rule.txt" (some "") (.file "N.flprj" (some "<p/>") .nil)) .nil)
  workingDirectory := []

theorem finds_plain : bracketed.root.isTidy = true ∧ bracketed.isDirectory "ra" = true ∧ IsPlain "ra" ∧
    Finds bracketed "ra" := by
  have tidy : bracketed.root.isTidy = true := by decide +kernel
  have start : bracketed.isDirectory "ra" = true := by decide +kernel
  have plain : IsPlain "ra" := ⟨List.all_eq_true.1 (by decide +kernel), .inr (by decide +kernel)⟩
  exact ⟨tidy, start, plain, finds_directory tidy start plain⟩

/-- In the directory with brackets in its name, the files of the other one are found. -/
theorem finds_bracketed : bracketed.root.isTidy = true ∧ bracketed.isDirectory "r[a]" = true ∧
    RuleDirectory.files bracketed "r[a]" = .ok ["ra/y_rule.txt"] ∧
      Project.find bracketed "r[a]" = .ok "ra/N.flprj" ∧ ¬ Finds bracketed "r[a]" := by
  have start : bracketed.isDirectory "r[a]" = true := by decide +kernel
  have searched : find bracketed (Path.join "r[a]" RuleDirectory.filePattern) = some ["ra/y_rule.txt"] := by
    decide +kernel
  have searched' : find bracketed (Path.join "r[a]" Project.filePattern) = some ["ra/N.flprj"] := by
    decide +kernel
  have isFile : bracketed.isFile "ra/y_rule.txt" = true := by decide +kernel
  have files : RuleDirectory.files bracketed "r[a]" = .ok ["ra/y_rule.txt"] := by
    rw [RuleDirectory.files, if_pos start, searched]
    exact congrArg Except.ok (List.filter_cons_of_pos isFile)
  refine ⟨by decide +kernel, start, files, by rw [Project.find, searched'], fun finds => ?_⟩
  obtain ⟨names, paths, same, -, leads⟩ := finds.ruleFiles
  cases files.symm.trans same
  cases leads with
  | cons first _ =>
    have outside : bracketed.locate "ra/y_rule.txt" = ["ra", "y_rule.txt"] := by decide +kernel
    have inside : bracketed.locate "r[a]" = ["r[a]"] := by decide +kernel
    have located := first.locate
    rw [outside, inside] at located
    have directories := (List.cons.inj located).1
    revert directories
    decide

end Search

end TopicLint
