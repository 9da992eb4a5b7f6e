import Mathlib.Data.List.Infix
import TopicLint.Config.File
import TopicLint.Proofs.Files.Disk
import TopicLint.Proofs.Files.Parent

/-! Looking for configuration files. The directories that are tried are those that the path of the start
passes, from the last one back, and the first one that has a file ends the search, whatever is in the file.
For a path without steps upwards these are the directory itself and those above it. A step upwards leads
to a directory from one that is not above it, and that one is tried too. -/

namespace TopicLint

namespace Disk

open TopicLint.Path (Step)

variable {disk : Disk} {path above : String} {inside : Folder} {location : List String}
  {steps : List Step}

/-- A location and those above it up to a given one, nearest first. -/
def upTo (top location : List String) : List (List String) := (location.inits.filter top.isPrefixOf).reverse

/-- The location of a path and those above it, nearest first, as far as the path can reach. -/
def ancestors (disk : Disk) (path : String) : List (List String) :=
  upTo (disk.reach path) (disk.locate path)

section Passing

theorem passed_concat (location : List String) (steps : List Step) (step : Step) :
    passed location (steps ++ [step]) =
      passed location steps ++ [(steps ++ [step]).foldl move location] := by
  induction steps generalizing location with
  | nil => cases step <;> rfl
  | cons first steps ih =>
    have next (more : List Step) :
        passed location (first :: more) = location :: passed (move location first) more := by
      cases first <;> rfl
    rw [List.cons_append, next, next, ih]
    rfl

theorem reach_parent (up : Path.parent path = some above) : disk.reach above = disk.reach path := by
  rw [reach, reach, Path.isAbsolute_parent up]

/-- The directory above is passed before. -/
theorem trail_parent (up : Path.parent path = some above) :
    disk.trail path = disk.trail above ++ [disk.locate path] := by
  obtain ⟨⟨last, same, -⟩, -⟩ := Path.steps_parent up
  rw [locate_eq_foldl, trail_eq, trail_eq, same, passed_concat, reach_parent up]

theorem leads_parent (up : Path.parent path = some above) (leads : disk.Leads path inside) :
    ∃ between, disk.Leads above between := by
  obtain ⟨⟨last, same, -⟩, -⟩ := Path.steps_parent up
  rw [Leads, route, same, ← List.append_assoc, ← Path.isAbsolute_parent up] at leads
  exact exists_follow_of_append leads

theorem upTo_concat {top : List String} (within : top <+: location) (name : String) :
    upTo top (location ++ [name]) = (location ++ [name]) :: upTo top location := by
  have more : top.isPrefixOf (location ++ [name]) = true :=
    List.isPrefixOf_iff_prefix.2 (within.trans (List.prefix_append _ _))
  rw [upTo, List.inits_append, List.filter_append, List.reverse_append]
  simp [more, upTo]

theorem upTo_self (location : List String) : upTo location location = [location] := by
  obtain rfl | ⟨front, name, same⟩ := List.eq_nil_or_concat location
  · rfl
  rw [List.concat_eq_append] at same
  subst same
  have shorter (higher : List String) (member : higher ∈ front.inits) :
      ¬ (front ++ [name]).isPrefixOf higher = true := by
    intro within
    have short := ((List.isPrefixOf_iff_prefix.1 within).trans ((List.mem_inits ..).1 member)).length_le
    rw [List.length_append, List.length_singleton] at short
    omega
  have whole : (front ++ [name]).isPrefixOf (front ++ [name]) = true :=
    List.isPrefixOf_iff_prefix.2 List.prefix_rfl
  rw [upTo, List.inits_append, List.filter_append, List.filter_eq_nil_iff.2 shorter]
  simp [whole]

theorem exists_upTo {top : List String} (within : top <+: location) :
    ∃ higher, upTo top location = location :: higher := by
  obtain ⟨names, rfl⟩ := within
  obtain rfl | ⟨front, name, same⟩ := List.eq_nil_or_concat names
  · rw [List.append_nil, upTo_self]
    exact ⟨[], rfl⟩
  · rw [List.concat_eq_append] at same
    subst same
    rw [← List.append_assoc, upTo_concat (List.prefix_append top front)]
    exact ⟨_, rfl⟩

variable {α : Type} (f : List String → Option α)

/-- Without steps upwards the locations that are passed are above one another. -/
theorem findSome?_passed (level : Step.up ∉ steps) (rootless : Step.root ∉ steps) :
    location <+: steps.foldl move location ∧
      (passed location steps).reverse.findSome? f =
        (upTo location (steps.foldl move location)).findSome? f := by
  induction steps using List.reverseRecOn with
  | nil => exact ⟨List.prefix_rfl, by rw [List.foldl_nil, upTo_self]; rfl⟩
  | append_singleton steps step ih =>
    rw [List.mem_append, not_or, List.mem_singleton] at level rootless
    obtain ⟨within, same⟩ := ih level.1 rootless.1
    rw [passed_concat, List.reverse_append, List.reverse_singleton, List.singleton_append,
      List.findSome?_cons, same, List.foldl_append, List.foldl_cons, List.foldl_nil]
    generalize steps.foldl move location = last at within ⊢
    cases step with
    | root => exact absurd rfl rootless.2
    | up => exact absurd rfl level.2
    | here =>
      -- The location is tried twice.
      obtain ⟨higher, split⟩ := exists_upTo within
      rw [move, split, List.findSome?_cons]
      exact ⟨within, by cases f last <;> rfl⟩
    | named name =>
      rw [move, upTo_concat within, List.findSome?_cons]
      exact ⟨within.trans (List.prefix_append _ _), rfl⟩

theorem findSome?_trail (level : Step.up ∉ Path.steps path) :
    (disk.trail path).reverse.findSome? f = (disk.ancestors path).findSome? f := by
  obtain ⟨rest, same, rootless⟩ := Path.exists_steps path
  rw [same, List.mem_append, not_or] at level
  have tried : (passed (disk.reach path) rest).reverse.findSome? f =
      (upTo (disk.reach path) (rest.foldl move (disk.reach path))).findSome? f :=
    (findSome?_passed f level.2 rootless).2
  rw [ancestors, trail_eq, locate_eq_foldl, same]
  by_cases absolute : Path.isAbsolute path = true
  · rw [reach, if_pos absolute] at tried ⊢
    rw [if_pos absolute, List.singleton_append, passed, List.reverse_cons, List.findSome?_append,
      List.foldl_cons, move, tried]
    -- The root is tried once more than it is passed.
    have top : [] ∈ upTo [] (rest.foldl move []) :=
      List.mem_reverse.2 (List.mem_filter.2 ⟨(List.mem_inits ..).2 List.nil_prefix, rfl⟩)
    cases found : (upTo [] (rest.foldl move [])).findSome? f with
    | some what => rfl
    | none =>
      rw [Option.none_or, List.findSome?_singleton, List.findSome?_eq_none_iff.1 found [] top]
  · rw [if_neg absolute, List.nil_append]
    exact tried

end Passing

end Disk

namespace Config

open TopicLint.Path (Step)

variable {disk : Disk} {path above directory name : String} {inside : Folder}
  {location : List String} {locations : List (List String)}

/-- The configuration file that the directory at a location has: the first of the names that is there. -/
def placeAt (disk : Disk) (location : List String) : Option (List String × String) :=
  (fileNames.find? fun name => (disk.root.at? (location ++ [name])).isSome).map (location, ·)

/-- That the search from a path tries the directories at some locations, one after the other. -/
structure Searches (disk : Disk) (path : String) (locations : List (List String)) : Prop where
  nothing : find disk path = .ok none ↔
    ∀ location ∈ locations, ∀ name ∈ fileNames, disk.root.at? (location ++ [name]) = none
  /-- The first file is read, and whatever comes of that is the outcome. -/
  nearest : ∀ location name, locations.findSome? (placeAt disk) = some (location, name) →
    ∃ directory, disk.locate directory = location ∧
      disk.look (Path.join directory name) = disk.root.at? (location ++ [name]) ∧
      find disk path = (ofFile disk (Path.join directory name)).map fun config =>
        some (Path.join directory name, config)
  inside : ∀ file config, find disk path = .ok (some (file, config)) → ofFile disk file = .ok config ∧
    ∃ location ∈ locations, ∃ name ∈ fileNames, disk.locate file = location ++ [name]

section Directories

theorem directoriesAbove_of_parent (up : Path.parent path = some above) :
    directoriesAbove path = path :: directoriesAbove above := by
  rw [directoriesAbove, up]
  exact if_pos (Path.length_parent_lt up)

theorem directoriesAbove_of_top (top : Path.parent path = none) : directoriesAbove path = [path] := by
  rw [directoriesAbove, top]

theorem leads_of_mem_directoriesAbove (leads : disk.Leads path inside)
    (member : directory ∈ directoriesAbove path) : ∃ inside, disk.Leads directory inside := by
  induction path using directoriesAbove.induct generalizing inside with
  | case1 path above up _ ih =>
    rw [directoriesAbove_of_parent up, List.mem_cons] at member
    rcases member with rfl | later
    · exact ⟨inside, leads⟩
    · obtain ⟨between, higher⟩ := Disk.leads_parent up leads
      exact ih higher later
  | case2 path above up long => exact absurd (Path.length_parent_lt up) long
  | case3 path top =>
    rw [directoriesAbove_of_top top, List.mem_singleton] at member
    exact ⟨inside, member ▸ leads⟩

/-- The directories that are looked into are at the locations that the path passes. -/
theorem findSome?_directoriesAbove {α : Type} (f : List String → Option α) (path : String) :
    (directoriesAbove path).findSome? (f ∘ disk.locate) = (disk.trail path).reverse.findSome? f := by
  induction path using directoriesAbove.induct with
  | case1 path above up _ ih =>
    rw [directoriesAbove_of_parent up, List.findSome?_cons, ih, Disk.trail_parent up, List.reverse_append,
      List.reverse_singleton, List.singleton_append, List.findSome?_cons]
    rfl
  | case2 path above up long => exact absurd (Path.length_parent_lt up) long
  | case3 path top =>
    rw [directoriesAbove_of_top top, List.findSome?_singleton, Function.comp, Disk.locate_eq_foldl,
      Disk.trail_eq, Path.steps_of_parent_eq_none top]
    split
    next absolute =>
      rw [Disk.reach, if_pos absolute]
      change f [] = [[], []].findSome? f
      rw [List.findSome?_cons, List.findSome?_singleton]
      cases f [] <;> rfl
    next => exact (List.findSome?_singleton ..).symm

theorem isName_of_mem (known : name ∈ fileNames) : Path.isName name = true := by
  revert name
  decide

theorem fileIn_eq (leads : disk.Leads directory inside) : fileIn disk directory =
    (placeAt disk (disk.locate directory)).map fun place => Path.join directory place.2 := by
  have holds (name : String) (known : name ∈ fileNames) : (disk.holds ∘ Path.join directory) name =
      (disk.root.at? (disk.locate directory ++ [name])).isSome :=
    congrArg Option.isSome (Disk.look_join leads (isName_of_mem known))
  rw [fileIn, List.find?_map, placeAt, Option.map_map, ← List.head?_filter, ← List.head?_filter,
    List.filter_congr holds]
  rfl

theorem placeAt_eq_some {place : List String × String} (there : placeAt disk location = some place) :
    place.1 = location ∧ place.2 ∈ fileNames := by
  obtain ⟨name, found, rfl⟩ := Option.map_eq_some_iff.1 there
  exact ⟨rfl, List.mem_of_find?_eq_some found⟩

theorem placeAt_eq_none : placeAt disk location = none ↔
    ∀ name ∈ fileNames, disk.root.at? (location ++ [name]) = none := by
  rw [placeAt, Option.map_eq_none_iff, List.find?_eq_none]
  simp only [Option.not_isSome_iff_eq_none]

/-- The first file in some directories is at the first place among their locations. -/
theorem findSome?_fileIn {directories : List String}
    (lead : ∀ directory ∈ directories, ∃ inside, disk.Leads directory inside) :
    (directories.findSome? (fileIn disk) = none ∧
      directories.findSome? (placeAt disk ∘ disk.locate) = none) ∨
    ∃ directory ∈ directories, ∃ name ∈ fileNames,
      directories.findSome? (fileIn disk) = some (Path.join directory name) ∧
      directories.findSome? (placeAt disk ∘ disk.locate) = some (disk.locate directory, name) := by
  induction directories with
  | nil => exact .inl ⟨rfl, rfl⟩
  | cons directory rest ih =>
    obtain ⟨⟨inside, leads⟩, later⟩ := List.forall_mem_cons.1 lead
    rw [List.findSome?_cons, List.findSome?_cons, fileIn_eq leads, Function.comp]
    cases there : placeAt disk (disk.locate directory) with
    | none =>
      refine (ih later).imp_right ?_
      rintro ⟨other, member, found⟩
      exact ⟨other, List.mem_cons_of_mem _ member, found⟩
    | some place =>
      obtain ⟨same, known⟩ := placeAt_eq_some there
      exact .inr ⟨directory, List.mem_cons_self, place.2, known, rfl, congrArg some (Prod.ext same rfl)⟩

end Directories

theorem exists_of_map_eq_ok {ε α β : Type} {f : α → β} {read : Except ε α} {what : β}
    (same : read.map f = .ok what) : ∃ found, read = .ok found ∧ f found = what := by
  cases read with
  | error reason => cases same
  | ok found => exact ⟨found, rfl, Except.ok.inj same⟩

theorem searches_of_none (nothing : nearestFile disk path = none)
    (nowhere : locations.findSome? (placeAt disk) = none) : Searches disk path locations := by
  have outcome : find disk path = .ok none := by
    rw [find, nothing]
  refine ⟨⟨fun _ location member => ?_, fun _ => outcome⟩, ?_, ?_⟩
  · exact placeAt_eq_none.1 (List.findSome?_eq_none_iff.1 nowhere location member)
  · intro location name found
    rw [nowhere] at found
    cases found
  · intro file config found
    rw [outcome] at found
    cases found

theorem searches_of_some (leads : disk.Leads directory inside) (known : name ∈ fileNames)
    (file : nearestFile disk path = some (Path.join directory name))
    (there : locations.findSome? (placeAt disk) = some (disk.locate directory, name)) :
    Searches disk path locations := by
  have outcome : find disk path = (ofFile disk (Path.join directory name)).map fun config =>
      some (Path.join directory name, config) := by
    rw [find, file]
  refine ⟨⟨fun empty => ?_, fun empty => ?_⟩, ?_, ?_⟩
  · obtain ⟨config, -, same⟩ := exists_of_map_eq_ok (outcome.symm.trans empty)
    cases same
  · have nowhere := List.findSome?_eq_none_iff.2 fun location member =>
      placeAt_eq_none.2 (empty location member)
    rw [nowhere] at there
    cases there
  · intro location other found
    rw [there] at found
    cases found
    exact ⟨directory, rfl, Disk.look_join leads (isName_of_mem known), outcome⟩
  · intro other config found
    obtain ⟨location, among, place⟩ := List.exists_of_findSome?_eq_some there
    obtain ⟨_, read, same⟩ := exists_of_map_eq_ok (outcome.symm.trans found)
    cases same
    refine ⟨read, location, among, name, known, ?_⟩
    rw [← (placeAt_eq_some place).1]
    exact Disk.locate_join (isName_of_mem known)

/-- Locations with the same first place as those that a path passes are as good as those. -/
theorem searches_of_eq (leads : disk.Leads path inside)
    (same : (disk.trail path).reverse.findSome? (placeAt disk) = locations.findSome? (placeAt disk)) :
    Searches disk path locations := by
  rw [← findSome?_directoriesAbove] at same
  have lead (directory) (member : directory ∈ directoriesAbove path) :=
    leads_of_mem_directoriesAbove leads member
  rcases findSome?_fileIn lead with ⟨nothing, nowhere⟩ | ⟨directory, member, name, known, file, there⟩
  · exact searches_of_none nothing (same.symm.trans nowhere)
  · obtain ⟨inside, leads⟩ := lead directory member
    exact searches_of_some leads known file (same.symm.trans there)

/-- The search tries the directories that the path of the start passes, from the last one back. If the
path has no steps upwards, these are the directory that it leads to and the ones above it. -/
theorem find_searches (start : disk.isDirectory path = true) :
    Searches disk path (disk.trail path).reverse ∧
      (Step.up ∉ Path.steps path → Searches disk path (disk.ancestors path)) := by
  obtain ⟨inside, found⟩ := Option.isSome_iff_exists.1 start
  obtain ⟨-, leads⟩ := Disk.folder?_eq_some found
  exact ⟨searches_of_eq leads rfl, fun level => searches_of_eq leads (Disk.findSome?_trail _ level)⟩

/-- A configuration in a directory inside another one. -/
def beside : Disk where
  root := .directory "P" (.directory "Q" (.file "flarelint.json" (some "\x7b\x7d") .nil) .nil) .nil
  workingDirectory := []

/-- From the inner directory it is found, and from the outer one it is not. -/
theorem find_beside : beside.isDirectory "P/Q" = true ∧
    (∃ directory, beside.locate directory = ["P", "Q"] ∧
      find beside "P/Q" = (ofFile beside (Path.join directory "flarelint.json")).map fun config =>
        some (Path.join directory "flarelint.json", config)) ∧
    beside.isDirectory "P" = true ∧ Step.up ∉ Path.steps "P" ∧ find beside "P" = .ok none := by
  have inner : beside.isDirectory "P/Q" = true := by decide +kernel
  have outer : beside.isDirectory "P" = true := by decide +kernel
  have level : Step.up ∉ Path.steps "P" := by decide +kernel
  obtain ⟨directory, there, -, found⟩ :=
    (find_searches inner).1.nearest ["P", "Q"] "flarelint.json" (by decide +kernel)
  exact ⟨inner, ⟨directory, there, found⟩, outer, level,
    ((find_searches outer).2 level).nothing.2 (by decide +kernel)⟩

/-- By a path that goes through the inner directory it is, though that is not above the outer one. -/
theorem find_beside_through : beside.isDirectory "P/Q/.." = true ∧ beside.locate "P/Q/.." = ["P"] ∧
    nearestFile beside "P/Q/.." = some "P/Q/flarelint.json" ∧
      ¬ Searches beside "P/Q/.." (beside.ancestors "P/Q/..") := by
  have nearest : nearestFile beside "P/Q/.." = some "P/Q/flarelint.json" := by
    have here : fileIn beside "P/Q/.." = none := by decide +kernel
    have inner : fileIn beside "P/Q" = some "P/Q/flarelint.json" := by decide +kernel
    have up : Path.parent "P/Q/.." = some "P/Q" := by decide +kernel
    have higher : Path.parent "P/Q" = some "P" := by decide +kernel
    rw [nearestFile, directoriesAbove_of_parent up, directoriesAbove_of_parent higher,
      List.findSome?_cons, here, List.findSome?_cons, inner]
  refine ⟨by decide +kernel, by decide +kernel, nearest, fun searches => ?_⟩
  have outcome := searches.nothing.2 (by decide +kernel)
  rw [find, nearest] at outcome
  obtain ⟨config, -, same⟩ := exists_of_map_eq_ok outcome
  cases same

end Config

end TopicLint
