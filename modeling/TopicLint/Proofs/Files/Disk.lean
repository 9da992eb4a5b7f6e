import Mathlib.Data.List.Nodup
import TopicLint.Files.Disk
import TopicLint.Proofs.Files.Path

/-! Where paths lead. A chain of names leads from the root to an entry, and a path to the entry at its
location, whatever its spelling. The files of a directory are those that chains of names lead to from
there, each listed once under the path of the directory with the names joined to it. -/

namespace TopicLint

namespace Folder

/-- Whether all entries have names, and those of one directory different ones, as it is on a disk. -/
def isTidy : Folder → Bool
  | nil => true
  | file name _ rest => Path.isName name && ! rest.names.contains name && rest.isTidy
  | directory name inside rest =>
      Path.isName name && ! rest.names.contains name && inside.isTidy && rest.isTidy

/-- What a chain of names leads to. Nothing is below a file. -/
def at? : List String → Folder → Option Entry
  | [], folder => some (.directory folder)
  | name :: rest, folder =>
      match folder.find? name with
      | some (.directory inside) => at? rest inside
      | some (.file text) => if rest.isEmpty then some (.file text) else none
      | none => none

/-- The chains of names that lead to files. -/
def fileNames : Folder → List (List String)
  | nil => []
  | file name _ rest => [name] :: fileNames rest
  | directory name inside rest => (fileNames inside).map (name :: ·) ++ fileNames rest

section Chains

variable {folder inside root : Folder} {name : String} {names location : List String}

theorem isTidy_file {text : Option String} {rest : Folder} :
    (file name text rest).isTidy = true ↔
      Path.isName name = true ∧ name ∉ rest.names ∧ rest.isTidy = true := by
  simp [isTidy, and_assoc]

theorem isTidy_directory {rest : Folder} :
    (directory name inside rest).isTidy = true ↔
      Path.isName name = true ∧ name ∉ rest.names ∧ inside.isTidy = true ∧ rest.isTidy = true := by
  simp [isTidy, and_assoc]

theorem tidy_of_find? (tidy : folder.isTidy = true) (found : folder.find? name = some (.directory inside)) :
    inside.isTidy = true := by
  induction folder with
  | nil => cases found
  | file known text rest ih =>
    rw [find?] at found
    split at found
    next => cases found
    next => exact ih (isTidy_file.1 tidy).2.2 found
  | directory known below rest _ ih =>
    obtain ⟨-, -, within, after⟩ := isTidy_directory.1 tidy
    rw [find?] at found
    split at found
    next =>
      cases found
      exact within
    next => exact ih after found

theorem at?_cons_eq_directory_iff : root.at? (name :: location) = some (.directory folder) ↔
    ∃ inside, root.find? name = some (.directory inside) ∧
      inside.at? location = some (.directory folder) := by
  rw [at?]
  cases root.find? name with
  | none => simp
  | some entry => cases entry <;> simp

theorem tidy_of_at? (tidy : root.isTidy = true) (found : root.at? location = some (.directory folder)) :
    folder.isTidy = true := by
  induction location generalizing root with
  | nil =>
    cases found
    exact tidy
  | cons name location ih =>
    obtain ⟨inside, there, found⟩ := at?_cons_eq_directory_iff.1 found
    exact ih (tidy_of_find? tidy there) found

/-- Behind a directory, a chain of names goes on from there. -/
theorem at?_append (found : root.at? location = some (.directory folder)) (names : List String) :
    root.at? (location ++ names) = folder.at? names := by
  induction location generalizing root with
  | nil =>
    cases found
    rfl
  | cons name location ih =>
    obtain ⟨inside, there, found⟩ := at?_cons_eq_directory_iff.1 found
    rw [List.cons_append, at?, there]
    exact ih found

theorem at?_file {known : String} {text : Option String} {rest : Folder} :
    (file known text rest).at? (name :: names) =
      if known = name then if names = [] then some (.file text) else none
      else rest.at? (name :: names) := by
  rw [at?, find?]
  by_cases same : known = name
  · simp [same]
  · rw [if_neg same, if_neg same, at?]

theorem at?_directory {known : String} {rest : Folder} :
    (directory known inside rest).at? (name :: names) =
      if known = name then inside.at? names else rest.at? (name :: names) := by
  rw [at?, find?]
  by_cases same : known = name
  · rw [if_pos same, if_pos same]
  · rw [if_neg same, if_neg same, at?]

theorem nil_notMem_fileNames (folder : Folder) : [] ∉ folder.fileNames := by
  induction folder with
  | nil => exact List.not_mem_nil
  | file name text rest ih => simp [fileNames, ih]
  | directory name inside rest _ ih => simp [fileNames, ih]

theorem mem_names_of_mem_fileNames (member : name :: names ∈ folder.fileNames) : name ∈ folder.names := by
  induction folder with
  | nil => cases member
  | file known text rest ih =>
    rcases List.mem_cons.1 member with same | later
    · cases same
      exact List.mem_cons_self
    · exact List.mem_cons_of_mem _ (ih later)
  | directory known inside rest _ ih =>
    rcases List.mem_append.1 member with below | later
    · obtain ⟨more, -, same⟩ := List.mem_map.1 below
      cases same
      exact List.mem_cons_self
    · exact List.mem_cons_of_mem _ (ih later)

/-- The chains that lead to files are listed. -/
theorem mem_fileNames_iff (tidy : folder.isTidy = true) :
    names ∈ folder.fileNames ↔ ∃ text, folder.at? names = some (.file text) := by
  induction folder generalizing names with
  | nil => cases names <;> simp [fileNames, at?, find?]
  | file known text rest ih =>
    obtain ⟨-, apart, tidy⟩ := isTidy_file.1 tidy
    cases names with
    | nil => simp [nil_notMem_fileNames, at?]
    | cons name names =>
      rw [fileNames, at?_file, List.mem_cons, List.cons.injEq]
      by_cases same : known = name
      · subst same
        have once : known :: names ∉ rest.fileNames := fun later => apart (mem_names_of_mem_fileNames later)
        by_cases ends : names = [] <;> simp [ends, once]
      · simp [same, Ne.symm same, ih tidy]
  | directory known inside rest ih ih' =>
    obtain ⟨-, apart, within, after⟩ := isTidy_directory.1 tidy
    cases names with
    | nil => simp [nil_notMem_fileNames, at?]
    | cons name names =>
      rw [fileNames, at?_directory, List.mem_append, List.mem_map]
      by_cases same : known = name
      · subst same
        have once : known :: names ∉ rest.fileNames := fun later => apart (mem_names_of_mem_fileNames later)
        simp [once, ih within]
      · simp [same, ih' after]

/-- No file is listed twice. -/
theorem nodup_fileNames (tidy : folder.isTidy = true) : folder.fileNames.Nodup := by
  induction folder with
  | nil => exact List.nodup_nil
  | file known text rest ih =>
    obtain ⟨-, apart, tidy⟩ := isTidy_file.1 tidy
    exact List.nodup_cons.2 ⟨fun later => apart (mem_names_of_mem_fileNames later), ih tidy⟩
  | directory known inside rest ih ih' =>
    obtain ⟨-, apart, within, after⟩ := isTidy_directory.1 tidy
    refine List.nodup_append.2 ⟨(ih within).map List.cons_injective, ih' after, ?_⟩
    rintro names below _ later rfl
    obtain ⟨more, -, rfl⟩ := List.mem_map.1 below
    exact apart (mem_names_of_mem_fileNames later)

theorem isName_of_mem_fileNames (tidy : folder.isTidy = true) (member : names ∈ folder.fileNames) :
    ∀ name ∈ names, Path.isName name = true := by
  induction folder generalizing names with
  | nil => cases member
  | file known text rest ih =>
    obtain ⟨named, -, tidy⟩ := isTidy_file.1 tidy
    rcases List.mem_cons.1 member with rfl | later
    · exact fun name only => List.mem_singleton.1 only ▸ named
    · exact ih tidy later
  | directory known inside rest ih ih' =>
    obtain ⟨named, -, within, after⟩ := isTidy_directory.1 tidy
    rcases List.mem_append.1 member with below | later
    · obtain ⟨more, listed, rfl⟩ := List.mem_map.1 below
      exact List.forall_mem_cons.2 ⟨named, ih within listed⟩
    · exact ih' after later

theorem at?_singleton (folder : Folder) (name : String) : folder.at? [name] = folder.find? name := by
  rw [at?]
  split
  next there => rw [there, at?]
  next there => rw [there]; rfl
  next there => rw [there]

theorem mem_names_iff : name ∈ folder.names ↔ ∃ entry, folder.find? name = some entry := by
  induction folder with
  | nil => simp [names, find?]
  | file known text rest ih =>
    rw [names, find?, List.mem_cons]
    split
    next same => simp [same]
    next apart => rw [ih, or_iff_right (Ne.symm apart)]
  | directory known inside rest _ ih =>
    rw [names, find?, List.mem_cons]
    split
    next same => simp [same]
    next apart => rw [ih, or_iff_right (Ne.symm apart)]

theorem nodup_names (tidy : folder.isTidy = true) : folder.names.Nodup := by
  induction folder with
  | nil => exact List.nodup_nil
  | file name text rest ih =>
    obtain ⟨-, apart, tidy⟩ := isTidy_file.1 tidy
    exact List.nodup_cons.2 ⟨apart, ih tidy⟩
  | directory name inside rest _ ih =>
    obtain ⟨-, apart, -, tidy⟩ := isTidy_directory.1 tidy
    exact List.nodup_cons.2 ⟨apart, ih tidy⟩

theorem isName_of_mem_names (tidy : folder.isTidy = true) (member : name ∈ folder.names) :
    Path.isName name = true := by
  induction folder with
  | nil => cases member
  | file known text rest ih =>
    obtain ⟨named, -, tidy⟩ := isTidy_file.1 tidy
    rcases List.mem_cons.1 member with rfl | later
    · exact named
    · exact ih tidy later
  | directory known inside rest _ ih =>
    obtain ⟨named, -, -, tidy⟩ := isTidy_directory.1 tidy
    rcases List.mem_cons.1 member with rfl | later
    · exact named
    · exact ih tidy later

theorem files_eq (folder : Folder) (base : String) :
    folder.files base = folder.fileNames.map (List.foldl Path.join base) := by
  induction folder generalizing base with
  | nil => rfl
  | file name text rest ih => exact congrArg (Path.join base name :: ·) (ih base)
  | directory name inside rest ih ih' =>
    rw [files, fileNames, ih, ih', List.map_append, List.map_map]
    rfl

end Chains

end Folder

namespace Disk

open TopicLint.Path (Step)

variable {disk : Disk} {above : List Folder} {folder inside root : Folder} {location : List String}
  {base name path other : String} {names : List String} {steps : List Step}

/-- Where a path starts: in the root or in the working directory. -/
def reach (disk : Disk) (path : String) : List String :=
  if Path.isAbsolute path then [] else disk.workingDirectory

/-- The steps from the root to where a path leads. -/
def route (disk : Disk) (path : String) : List Step :=
  (if Path.isAbsolute path then [] else disk.workingDirectory.map (Step.named ·.toList)) ++
    Path.steps path

/-- The location that a step leads to from another one. Above the root is the root. -/
def move (location : List String) : Step → List String
  | .up => location.dropLast
  | .named name => location ++ [String.ofList name]
  | .root => []
  | .here => location

/-- The location that a path leads to. -/
def locate (disk : Disk) (path : String) : List String := (disk.trail path).getLastD []

section Locations

theorem getLast?_passed (location : List String) (steps : List Step) :
    (passed location steps).getLast? = some (steps.foldl move location) := by
  induction steps generalizing location with
  | nil => rfl
  | cons step steps ih =>
    have next : passed location (step :: steps) = location :: passed (move location step) steps := by
      cases step <;> rfl
    rw [next, List.getLast?_cons, ih]
    rfl

theorem foldl_move_names (location names : List String) :
    (names.map (Step.named ·.toList)).foldl move location = location ++ names := by
  induction names generalizing location with
  | nil => exact (List.append_nil _).symm
  | cons name names ih =>
    refine (ih _).trans ?_
    rw [move, String.ofList_toList, List.append_assoc]
    rfl

theorem trail_eq (disk : Disk) (path : String) :
    disk.trail path = passed (disk.reach path) (Path.steps path) := rfl

theorem locate_eq_foldl (disk : Disk) (path : String) :
    disk.locate path = (Path.steps path).foldl move (disk.reach path) := by
  rw [locate, trail_eq, List.getLastD_eq_getLast?, getLast?_passed]
  rfl

/-- Paths that start in the same place and take the same steps lead to the same location. -/
theorem locate_congr (start : Path.isAbsolute other = Path.isAbsolute path)
    (moves : Path.moves other = Path.moves path) : disk.locate other = disk.locate path := by
  have eq_moves (path : String) : disk.locate path = (Path.moves path).foldl move (disk.reach path) := by
    rw [locate_eq_foldl]
    rcases Path.steps_cases path with ⟨absolute, same⟩ | ⟨-, same | same⟩ <;> rw [same]
    · rw [reach, if_pos absolute]
      rfl
    · rfl
  rw [eq_moves, eq_moves, reach, reach, start, moves]

theorem locate_eq (disk : Disk) (path : String) : disk.locate path = (disk.route path).foldl move [] := by
  rw [locate_eq_foldl, reach, route, List.foldl_append]
  split
  · rfl
  · rw [foldl_move_names, List.nil_append]

theorem route_join (named : Path.isName name = true) :
    disk.route (Path.join base name) = disk.route base ++ [.named name.toList] := by
  rw [route, Path.isAbsolute_join (Path.whole_of_isName named), Path.steps_join named,
    ← List.append_assoc]
  rfl

theorem locate_join (named : Path.isName name = true) :
    disk.locate (Path.join base name) = disk.locate base ++ [name] := by
  rw [locate_eq, route_join named, List.foldl_append, ← locate_eq, List.foldl_cons, List.foldl_nil, move,
    String.ofList_toList]

theorem joined_ne_empty (filled : base ≠ "") (named : ∀ name ∈ names, Path.isName name = true) :
    names.foldl Path.join base ≠ "" := by
  induction names generalizing base with
  | nil => exact filled
  | cons name names ih =>
    obtain ⟨here, later⟩ := List.forall_mem_cons.1 named
    exact ih (Path.join_ne_empty here) later

/-- Names joined to a path lead on from where it leads. -/
theorem route_joined (named : ∀ name ∈ names, Path.isName name = true) :
    disk.route (names.foldl Path.join base) = disk.route base ++ names.map (Step.named ·.toList) := by
  induction names generalizing base with
  | nil => exact (List.append_nil _).symm
  | cons name names ih =>
    obtain ⟨here, later⟩ := List.forall_mem_cons.1 named
    refine (ih later).trans ?_
    rw [route_join here, List.append_assoc]
    rfl

theorem locate_joined (named : ∀ name ∈ names, Path.isName name = true) :
    disk.locate (names.foldl Path.join base) = disk.locate base ++ names := by
  rw [locate_eq, route_joined named, List.foldl_append, foldl_move_names, ← locate_eq]

end Locations

section Following

/-- The directory at a location, with those above it. -/
inductive Standing (root : Folder) : List String → List Folder → Folder → Prop where
  | top : Standing root [] [] root
  | enter (location : List String) (above : List Folder) (folder : Folder) (name : String)
      (inside : Folder) : Standing root location above folder →
      folder.find? name = some (.directory inside) →
      Standing root (location ++ [name]) (folder :: above) inside

theorem Standing.at?_eq (standing : Standing root location above folder) :
    root.at? location = some (.directory folder) := by
  induction standing with
  | top => rfl
  | enter _ _ _ _ _ _ found ih =>
    rw [Folder.at?_append ih, Folder.at?, found]
    rfl

theorem follow_names (above : List Folder) (folder : Folder) (names : List String) :
    follow above folder (names.map (Step.named ·.toList)) = folder.at? names := by
  induction names generalizing above folder with
  | nil => rfl
  | cons name names ih =>
    rw [List.map_cons, follow, String.ofList_toList, Folder.at?]
    cases folder.find? name with
    | none => rfl
    | some entry =>
      cases entry with
      | directory inside => exact ih _ inside
      | file text => simp only [List.isEmpty_map]

/-- The directory that steps lead to is where they lead to. -/
theorem Standing.follow (standing : Standing root location above folder) (rootless : Step.root ∉ steps)
    (found : follow above folder steps = some (.directory inside)) :
    ∃ above, Standing root (steps.foldl move location) above inside := by
  induction steps generalizing location above folder with
  | nil =>
    cases found
    exact ⟨above, standing⟩
  | cons step steps ih =>
    rw [List.mem_cons, not_or] at rootless
    cases step with
    | root => exact absurd rfl rootless.1
    | here => exact ih standing rootless.2 found
    | up =>
      cases standing with
      | top => exact ih .top rootless.2 found
      | enter location above folder name inside standing there =>
        refine ih ?_ rootless.2 found
        rw [move, List.dropLast_concat]
        exact standing
    | named name =>
      rw [Disk.follow] at found
      split at found
      next below there => exact ih (.enter _ _ _ _ _ standing there) rootless.2 found
      next => split at found <;> cases found
      next => cases found

theorem look_eq (filled : path ≠ "") : disk.look path =
    match follow [] disk.root (disk.route path) with
    | some (.file text) => if asksDirectory path then none else some (.file text)
    | entry => entry := if_neg (mt String.isEmpty_iff.1 filled)

/-- Whether a path leads to a directory. The empty path names nothing, but leads to where paths start. -/
def Leads (disk : Disk) (path : String) (inside : Folder) : Prop :=
  follow [] disk.root (disk.route path) = some (.directory inside)

theorem folder?_eq_some (found : disk.folder? path = some inside) : path ≠ "" ∧ disk.Leads path inside := by
  have filled : path ≠ "" := by
    rintro rfl
    cases found
  refine ⟨filled, ?_⟩
  rw [folder?, look_eq filled] at found
  split at found
  next inside there =>
    cases found
    split at there
    next => split at there <;> cases there
    next => exact there
  next => cases found

theorem look_of_leads (filled : path ≠ "") (leads : disk.Leads path inside) :
    disk.look path = some (.directory inside) := by
  rw [look_eq filled, leads]

theorem folder?_of_leads (filled : path ≠ "") (leads : disk.Leads path inside) :
    disk.folder? path = some inside := by
  rw [folder?, look_of_leads filled leads]

/-- A path to a directory leads to the location of that directory. -/
theorem at?_of_leads (leads : disk.Leads path inside) :
    disk.root.at? (disk.locate path) = some (.directory inside) := by
  obtain ⟨steps, same, rootless⟩ := Path.exists_steps path
  rw [locate_eq]
  rw [Leads, route, same] at leads
  rw [route, same]
  by_cases absolute : Path.isAbsolute path = true
  · rw [if_pos absolute, if_pos absolute] at leads ⊢
    obtain ⟨above, standing⟩ := Standing.top.follow rootless leads
    exact standing.at?_eq
  · rw [if_neg absolute, if_neg absolute, List.nil_append] at leads ⊢
    have whole : Step.root ∉ disk.workingDirectory.map (Step.named ·.toList) ++ steps := by
      simp [rootless]
    obtain ⟨above, standing⟩ := Standing.top.follow whole leads
    exact standing.at?_eq

theorem at?_locate (found : disk.folder? path = some inside) :
    disk.root.at? (disk.locate path) = some (.directory inside) := at?_of_leads (folder?_eq_some found).2

theorem tidy_of_folder? (tidy : disk.root.isTidy = true) (found : disk.folder? path = some inside) :
    inside.isTidy = true := Folder.tidy_of_at? tidy (at?_locate found)

/-- Behind a directory, more steps go on from there. -/
theorem follow_append (found : follow above folder steps = some (.directory inside)) :
    ∃ higher, ∀ more, follow above folder (steps ++ more) = follow higher inside more := by
  induction steps generalizing above folder with
  | nil =>
    cases found
    exact ⟨above, fun _ => rfl⟩
  | cons step steps ih =>
    cases step with
    | root => exact ih found
    | here => exact ih found
    | up =>
      cases above with
      | nil => exact ih found
      | cons parent above => exact ih found
    | named name =>
      simp only [List.cons_append, follow] at found ⊢
      split at found
      next => exact ih found
      next => split at found <;> cases found
      next => cases found

/-- What leads to a directory passes directories only. -/
theorem exists_follow_of_append {more : List Step}
    (found : follow above folder (steps ++ more) = some (.directory inside)) :
    ∃ between, follow above folder steps = some (.directory between) := by
  induction steps generalizing above folder with
  | nil => exact ⟨folder, rfl⟩
  | cons step steps ih =>
    cases step with
    | root => exact ih found
    | here => exact ih found
    | up =>
      cases above with
      | nil => exact ih found
      | cons parent above => exact ih found
    | named name =>
      simp only [List.cons_append, follow] at found ⊢
      split at found
      next => exact ih found
      next => split at found <;> cases found
      next => cases found

/-- Behind a directory, steps that lead to the same entries can stand for one another. -/
theorem follow_congr {more other : List Step}
    (same : ∀ above folder, follow above folder more = follow above folder other)
    (found : follow above folder (steps ++ more) = some (.directory inside)) :
    follow above folder (steps ++ other) = some (.directory inside) := by
  obtain ⟨between, start⟩ := exists_follow_of_append found
  obtain ⟨higher, goes⟩ := follow_append start
  rw [goes] at found ⊢
  rwa [← same]

/-- What leads to a directory is decided by where the path starts and by the steps from there. -/
theorem leads_iff : disk.Leads path inside ↔
    follow [] disk.root ((disk.reach path).map (Step.named ·.toList) ++ Path.moves path) =
      some (.directory inside) := by
  have route_eq : disk.route path = (disk.reach path).map (Step.named ·.toList) ++ Path.steps path := by
    rw [route, reach]
    split <;> rfl
  rw [Leads, route_eq]
  rcases Path.steps_cases path with ⟨absolute, same⟩ | ⟨-, same | same⟩
  · rw [same, reach, if_pos absolute]
    exact Iff.rfl
  · rw [same]
  · rw [same]
    exact ⟨follow_congr fun _ _ => rfl, follow_congr fun _ _ => rfl⟩

theorem Leads.congr (start : Path.isAbsolute other = Path.isAbsolute path)
    (moves : Path.moves other = Path.moves path) (leads : disk.Leads path inside) :
    disk.Leads other inside := by
  rw [leads_iff] at leads ⊢
  rwa [reach, start, moves]

theorem Leads.before (start : Path.isAbsolute other = Path.isAbsolute path) {more : List Step}
    (moves : Path.moves path = Path.moves other ++ more) (leads : disk.Leads path inside) :
    ∃ between, disk.Leads other between := by
  rw [leads_iff, reach, ← start, moves, ← List.append_assoc] at leads
  obtain ⟨between, found⟩ := exists_follow_of_append leads
  exact ⟨between, leads_iff.2 found⟩

theorem asksDirectory_join (named : Path.isName name = true) :
    asksDirectory (Path.join base name) = false := by
  have last : (Path.layout (Path.join base name).toList).body.getLast? = some name.toList := by
    by_cases filled : base = ""
    · rw [filled, Path.join_empty, Path.layout_of_isName named, List.getLast?_singleton]
    · obtain ⟨body, laid, -⟩ := Path.exists_layout_join (Path.whole_of_isName named) filled
      rw [laid, List.getLast?_concat]
  rw [asksDirectory, last, Option.any_some, Path.isIdle_of_isName named]

/-- An entry of a directory is found under the path of the directory with its name joined to it. -/
theorem look_join (leads : disk.Leads base inside) (named : Path.isName name = true) :
    disk.look (Path.join base name) = disk.root.at? (disk.locate base ++ [name]) := by
  obtain ⟨above, goes⟩ := follow_append leads
  have there : follow above inside [.named name.toList] = inside.at? [name] :=
    follow_names above inside [name]
  rw [look_eq (Path.join_ne_empty named), route_join named, goes, there,
    Folder.at?_append (at?_of_leads leads), asksDirectory_join named]
  split
  next file => rw [file, if_neg Bool.false_ne_true]
  next => rfl

/-- A file that names lead to from a directory is found under the path with the names joined to it. -/
theorem look_joined (found : disk.folder? base = some inside)
    (named : ∀ name ∈ names, Path.isName name = true) {text : Option String}
    (there : inside.at? names = some (.file text)) :
    disk.look (names.foldl Path.join base) = some (.file text) := by
  obtain ⟨filled, followed⟩ := folder?_eq_some found
  obtain ⟨above, goes⟩ := follow_append followed
  have same : follow [] disk.root (disk.route (names.foldl Path.join base)) = some (.file text) := by
    rw [route_joined named, goes, follow_names, there]
  have asks : asksDirectory (names.foldl Path.join base) = false := by
    obtain rfl | ⟨front, last, split⟩ := List.eq_nil_or_concat names
    · cases there
    · rw [List.concat_eq_append] at split
      subst split
      obtain ⟨-, lasts⟩ := List.forall_mem_append.1 named
      rw [List.foldl_append]
      exact asksDirectory_join (lasts last List.mem_cons_self)
  rw [look_eq (joined_ne_empty filled named), same]
  exact if_neg (Bool.eq_false_iff.1 asks)

end Following

end Disk

end TopicLint
