import Mathlib.Data.List.Nodup
import TopicLint.Project
import TopicLint.Proofs.Files.Disk

/-! Which files of a project are listed. The list holds the files below the directories that are looked
into, in order and under paths that are not excluded. It holds a file once for each of these directories
that has the file in it, so once only where they do not overlap. -/

namespace TopicLint.Project

/-- Whether a directory that is looked into holds the file at a location, under a path that is not
excluded. -/
def covers (disk : Disk) (config : Config) (project : Project) (location : List String)
    (scanned : String) : Bool :=
  let base := Path.join project.directory scanned
  let start := disk.locate base
  disk.isDirectory base && start.isPrefixOf location &&
    ! config.excludesFile
      (Path.shown project.directory ((location.drop start.length).foldl Path.join base))

/-- Whether neither of two directories that are looked into is inside the other one. -/
def Apart (disk : Disk) (project : Project) (scanned other : String) : Prop :=
  ¬ disk.locate (Path.join project.directory scanned) <+: disk.locate (Path.join project.directory other) ∧
    ¬ disk.locate (Path.join project.directory other) <+: disk.locate (Path.join project.directory scanned)

/-- What the list of the files of a project holds. -/
structure Lists (disk : Disk) (config : Config) (project : Project) : Prop where
  ordered : (project.files disk config).Pairwise fun first second =>
    Text.atMost (Text.lowercase first) (Text.lowercase second) = true
  isFile : ∀ path ∈ project.files disk config, ∃ text, disk.look path = some (.file text) ∧
    disk.root.at? (disk.locate path) = some (.file text)
  mem_iff : ∀ location, location ∈ (project.files disk config).map disk.locate ↔
    (∃ text, disk.root.at? location = some (.file text)) ∧
      ∃ scanned ∈ config.scanDirs, covers disk config project location scanned = true
  count_eq : ∀ location text, disk.root.at? location = some (.file text) →
    ((project.files disk config).map disk.locate).count location =
      config.scanDirs.countP (covers disk config project location)
  nodup_of_apart : config.scanDirs.Pairwise (Apart disk project) →
    ((project.files disk config).map disk.locate).Nodup

section Scanning

variable {disk : Disk} {config : Config} {project : Project} {scanned path : String} {inside : Folder}
  {location : List String} {text : Option String}

theorem filesIn_eq (found : disk.folder? (Path.join project.directory scanned) = some inside) :
    project.filesIn disk config scanned =
      (inside.fileNames.map (List.foldl Path.join (Path.join project.directory scanned))).filter fun path =>
        ! config.excludesFile (Path.shown project.directory path) := by
  rw [filesIn, Disk.filesIn, found, ← Folder.files_eq]

theorem filesIn_of_missing (missing : disk.folder? (Path.join project.directory scanned) = none) :
    project.filesIn disk config scanned = [] := by
  rw [filesIn, Disk.filesIn, missing]
  rfl

variable (tidy : disk.root.isTidy = true)

include tidy

theorem locate_of_mem_fileNames {base : String} {names : List String}
    (found : disk.folder? base = some inside) (member : names ∈ inside.fileNames) :
    disk.locate (names.foldl Path.join base) = disk.locate base ++ names := by
  have named := Folder.isName_of_mem_fileNames (Disk.tidy_of_folder? tidy found) member
  exact Disk.locate_joined named

theorem isFile_of_mem_filesIn (member : path ∈ project.filesIn disk config scanned) :
    ∃ text, disk.look path = some (.file text) ∧ disk.root.at? (disk.locate path) = some (.file text) := by
  cases found : disk.folder? (Path.join project.directory scanned) with
  | none =>
    rw [filesIn_of_missing found] at member
    cases member
  | some inside =>
    rw [filesIn_eq found] at member
    obtain ⟨names, listed, rfl⟩ := List.mem_map.1 (List.mem_filter.1 member).1
    have within := Disk.tidy_of_folder? tidy found
    obtain ⟨text, there⟩ := (Folder.mem_fileNames_iff within).1 listed
    have named := Folder.isName_of_mem_fileNames within listed
    refine ⟨text, Disk.look_joined found named there, ?_⟩
    rw [locate_of_mem_fileNames tidy found listed, Folder.at?_append (Disk.at?_locate found), there]

/-- One directory brings no file into the list twice. -/
theorem nodup_filesIn : ((project.filesIn disk config scanned).map disk.locate).Nodup := by
  cases found : disk.folder? (Path.join project.directory scanned) with
  | none =>
    rw [filesIn_of_missing found]
    exact List.nodup_nil
  | some inside =>
    have below : inside.fileNames.map
        (disk.locate ∘ List.foldl Path.join (Path.join project.directory scanned)) =
          inside.fileNames.map (disk.locate (Path.join project.directory scanned) ++ ·) :=
      List.map_congr_left fun names listed => locate_of_mem_fileNames tidy found listed
    have nodup := (Folder.nodup_fileNames (Disk.tidy_of_folder? tidy found)).map
      (List.append_right_injective (disk.locate (Path.join project.directory scanned)))
    rw [← below, ← List.map_map] at nodup
    rw [filesIn_eq found]
    exact nodup.sublist (List.filter_sublist.map _)

/-- A directory brings the files into the list that it covers. -/
theorem mem_filesIn_iff : location ∈ (project.filesIn disk config scanned).map disk.locate ↔
    (∃ text, disk.root.at? location = some (.file text)) ∧
      covers disk config project location scanned = true := by
  cases found : disk.folder? (Path.join project.directory scanned) with
  | none => simp [filesIn_of_missing found, covers, Disk.isDirectory, found]
  | some inside =>
    have here := Disk.at?_locate found
    have within := Disk.tidy_of_folder? tidy found
    simp only [filesIn_eq found, covers, Disk.isDirectory, found, Option.isSome_some, Bool.true_and,
      Bool.and_eq_true, List.isPrefixOf_iff_prefix, List.mem_map, List.mem_filter]
    constructor
    · rintro ⟨path, ⟨⟨names, listed, rfl⟩, kept⟩, rfl⟩
      rw [locate_of_mem_fileNames tidy found listed, Folder.at?_append here, List.drop_left]
      exact ⟨(Folder.mem_fileNames_iff within).1 listed, List.prefix_append _ _, kept⟩
    · rintro ⟨⟨text, file⟩, ⟨names, rfl⟩, kept⟩
      rw [Folder.at?_append here] at file
      rw [List.drop_left] at kept
      have listed := (Folder.mem_fileNames_iff within).2 ⟨text, file⟩
      exact ⟨_, ⟨⟨names, listed, rfl⟩, kept⟩, locate_of_mem_fileNames tidy found listed⟩

theorem count_filesIn (file : disk.root.at? location = some (.file text)) :
    ((project.filesIn disk config scanned).map disk.locate).count location =
      if covers disk config project location scanned = true then 1 else 0 := by
  have member : location ∈ (project.filesIn disk config scanned).map disk.locate ↔
      covers disk config project location scanned = true :=
    (mem_filesIn_iff tidy).trans (and_iff_right ⟨text, file⟩)
  rw [(nodup_filesIn tidy).count]
  simp only [member]

/-- The list holds a file once for each directory that covers it. -/
theorem count_files (file : disk.root.at? location = some (.file text)) :
    ((project.files disk config).map disk.locate).count location =
      config.scanDirs.countP (covers disk config project location) := by
  rw [files, ((List.mergeSort_perm _ _).map _).count_eq]
  induction config.scanDirs with
  | nil => rfl
  | cons scanned rest ih =>
    rw [List.flatMap_cons, List.map_append, List.count_append, ih, count_filesIn tidy file,
      List.countP_cons, Nat.add_comm]

theorem mem_files_iff : location ∈ (project.files disk config).map disk.locate ↔
    (∃ text, disk.root.at? location = some (.file text)) ∧
      ∃ scanned ∈ config.scanDirs, covers disk config project location scanned = true := by
  rw [files, ((List.mergeSort_perm _ _).map _).mem_iff, List.map_flatMap, List.mem_flatMap]
  simp only [mem_filesIn_iff tidy]
  constructor
  · rintro ⟨scanned, listed, file, covered⟩
    exact ⟨file, scanned, listed, covered⟩
  · rintro ⟨file, scanned, listed, covered⟩
    exact ⟨scanned, listed, file, covered⟩

omit tidy in
/-- Of directories that are apart, one at most covers a file. -/
theorem countP_covers_le_one {scanDirs : List String} (apart : scanDirs.Pairwise (Apart disk project)) :
    scanDirs.countP (covers disk config project location) ≤ 1 := by
  have around (scanned : String) (covered : covers disk config project location scanned = true) :
      disk.locate (Path.join project.directory scanned) <+: location := by
    simp only [covers, Bool.and_eq_true, List.isPrefixOf_iff_prefix] at covered
    exact covered.1.2
  induction apart with
  | nil => exact Nat.zero_le 1
  | @cons scanned rest apart _ ih =>
    by_cases covered : covers disk config project location scanned = true
    · have alone : rest.countP (covers disk config project location) = 0 := by
        refine List.countP_eq_zero.2 fun other listed also => ?_
        rcases List.prefix_or_prefix_of_prefix (around scanned covered) (around other also) with up | down
        · exact (apart other listed).1 up
        · exact (apart other listed).2 down
      rw [List.countP_cons_of_pos covered, alone]
    · rwa [List.countP_cons_of_neg covered]

theorem nodup_files (apart : config.scanDirs.Pairwise (Apart disk project)) :
    ((project.files disk config).map disk.locate).Nodup := by
  refine List.nodup_iff_count_le_one.2 fun location => ?_
  by_cases listed : location ∈ (project.files disk config).map disk.locate
  · obtain ⟨⟨text, file⟩, -⟩ := (mem_files_iff tidy).1 listed
    rw [count_files tidy file]
    exact countP_covers_le_one apart
  · rw [List.count_eq_zero.2 listed]
    exact Nat.zero_le 1

end Scanning

theorem ordered_files (disk : Disk) (config : Config) (project : Project) :
    (project.files disk config).Pairwise fun first second =>
      Text.atMost (Text.lowercase first) (Text.lowercase second) = true := by
  rw [files]
  exact (Text.pairwise_le_mergeSort Text.lowercase _).imp Text.atMost_iff.2

/-- The list holds the files below the directories that are looked into, each as often as these cover
it. -/
theorem lists_files (disk : Disk) (config : Config) (project : Project) (tidy : disk.root.isTidy = true) :
    Lists disk config project where
  ordered := ordered_files disk config project
  isFile path listed := by
    rw [files, List.mem_mergeSort, List.mem_flatMap] at listed
    obtain ⟨scanned, -, member⟩ := listed
    exact isFile_of_mem_filesIn tidy member
  mem_iff _ := mem_files_iff tidy
  count_eq _ _ file := count_files tidy file
  nodup_of_apart apart := nodup_files tidy apart

/-- A project with one topic in a directory inside another one. -/
def manual : Project := ⟨"P/M.flprj", "P", "en-us"⟩

def manualDisk : Disk where
  root := .directory "P" (.file "M.flprj" (some "<p/>")
    (.directory "Content" (.directory "Sub" (.file "a.htm" (some "<p/>") .nil) .nil) .nil)) .nil
  workingDirectory := []

/-- Looks into a directory and into one inside it. -/
def overlapping : Config := { Config.standard with scanDirs := ["Content", "Content/Sub"] }

theorem lists_manual : manualDisk.root.isTidy = true ∧
    ((manual.files manualDisk overlapping).map manualDisk.locate).count ["P", "Content", "Sub", "a.htm"] =
      2 := by
  have tidy : manualDisk.root.isTidy = true := by decide +kernel
  refine ⟨tidy, ?_⟩
  rw [(lists_files manualDisk overlapping manual tidy).count_eq _ (some "<p/>") (by decide +kernel)]
  decide +kernel

/-- The one topic is listed twice, as it is in both directories. -/
theorem listed_twice :
    manual.files manualDisk overlapping = ["P/Content/Sub/a.htm", "P/Content/Sub/a.htm"] := by
  rw [files, List.mergeSort_of_pairwise (by decide +kernel)]
  decide +kernel

end TopicLint.Project
