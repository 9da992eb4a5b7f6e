import Mathlib.Data.List.Dedup
import TopicLint.Report.Listing
import TopicLint.Proofs.Report.Merge

/-! The listing of a report goes file by file. It is written in one pass over the sorted findings that
compares each of them with the one before it and nothing else; as long as files differ in more than case
and in more than spelling, sorting brings the findings of a file together, and the pass writes what one
gets by gathering the findings of each file first. -/

namespace TopicLint.Report

/-- The findings of one file. -/
structure Group where
  file : String
  findings : List Diagnostic
  deriving DecidableEq, Repr

/-- A group as lines to read: the heading of its file and its findings below it. -/
def Group.written (colour : Bool) (base : String) (group : Group) : String :=
  heading colour base group.file ++ String.join (group.findings.map (Diagnostic.entry colour))

/-- The files with findings, in the order of their lower-case forms. -/
def paths (report : Report) : List String :=
  (report.diagnostics.map (·.file)).dedup.mergeSort fun one other =>
    Text.atMost (Text.lowercase one) (Text.lowercase other)

/-- What is found in a file, in the order of the lines. -/
def findingsIn (report : Report) (path : String) : List Diagnostic :=
  (report.diagnostics.filter (·.file == path)).mergeSort fun one other => one.line ≤ other.line

def groups (report : Report) : List Group :=
  report.paths.map fun path => ⟨path, report.findingsIn path⟩

/-- The groups of a report one after the other, with a blank line behind each of them, and the summary. -/
def groupedListing (colour : Bool) (base : String) (report : Report) : String :=
  String.join (report.groups.map fun group => group.written colour base ++ "\n") ++ report.summary ++ "\n"

/-- Whether a text ends its last line. A line break behind it is a blank line then. -/
def EndsLine (text : String) : Prop := ∃ line, text = line ++ "\n"

/-- The files with findings can be told apart without regard to case, and each is spelled in one way. -/
structure ToldApart (report : Report) : Prop where
  same : ∀ one ∈ report.diagnostics, ∀ other ∈ report.diagnostics,
    Text.lowercase one.file = Text.lowercase other.file → Path.same one.file other.file = true
  spelled : ∀ one ∈ report.diagnostics, ∀ other ∈ report.diagnostics,
    Path.same one.file other.file = true → one.file = other.file

/-- The listing of a sorted report goes file by file. -/
structure ListsByFile (colour : Bool) (base : String) (report : Report) : Prop where
  listing_eq : report.sort.listing colour base = report.groupedListing colour base
  /-- Without findings there is the summary alone. -/
  empty : report.diagnostics = [] → report.sort.listing colour base = report.summary ++ "\n"
  /-- A file with findings has one heading. -/
  once : ∀ diagnostic ∈ report.diagnostics, (report.groups.map (·.file)).count diagnostic.file = 1
  /-- Below each heading stand findings: all those of its file and no others. -/
  filled : ∀ group ∈ report.groups, group.findings ≠ []
  findings_eq : ∀ group ∈ report.groups,
    group.findings = report.sort.diagnostics.filter (·.file == group.file)
  lines : ∀ group ∈ report.groups, group.findings.Pairwise fun one other => one.line ≤ other.line
  files : report.groups.Pairwise fun one other => Text.lowercase one.file < Text.lowercase other.file
  endsLine : ∀ group ∈ report.groups, EndsLine (group.written colour base)

section Pass

variable (colour : Bool) (base : String)

/-- What stands before the heading of a file: nothing, or a blank line behind the file before. -/
def gap : Option String → String
  | none => ""
  | some _ => "\n"

/-- Findings in the file of the finding before them have no heading. -/
theorem entries_append {file : String} {findings : List Diagnostic} (rest : List Diagnostic)
    (own : ∀ diagnostic ∈ findings, diagnostic.file = file) :
    entries colour base (some file) (findings ++ rest) =
      String.join (findings.map (Diagnostic.entry colour)) ++ entries colour base (some file) rest := by
  induction findings with
  | nil => rw [List.nil_append, List.map_nil, String.join_nil, String.empty_append]
  | cons diagnostic findings ih =>
    obtain ⟨rfl, own⟩ := List.forall_mem_cons.1 own
    have known : Path.same diagnostic.file diagnostic.file = true := beq_self_eq_true _
    rw [List.cons_append, entries, ih own, List.map_cons, String.join_cons, if_pos known,
      String.empty_append, String.append_assoc]

/-- A finding in another file than the one before it is announced. -/
theorem entries_cons {last : Option String} (diagnostic : Diagnostic) (rest : List Diagnostic)
    (fresh : ∀ file ∈ last, Path.same file diagnostic.file = false) :
    entries colour base last (diagnostic :: rest) = gap last ++ heading colour base diagnostic.file ++
      diagnostic.entry colour ++ entries colour base (some diagnostic.file) rest := by
  cases last with
  | none => rw [entries, gap, String.empty_append]
  | some file =>
    have changed : ¬ Path.same file diagnostic.file = true := by
      rw [fresh file rfl]
      exact Bool.false_ne_true
    rw [entries, if_neg changed, gap]

theorem entries_group {last : Option String} {group : Group} (rest : List Diagnostic)
    (filled : group.findings ≠ []) (own : ∀ diagnostic ∈ group.findings, diagnostic.file = group.file)
    (fresh : ∀ file ∈ last, Path.same file group.file = false) :
    entries colour base last (group.findings ++ rest) =
      gap last ++ group.written colour base ++ entries colour base (some group.file) rest := by
  obtain ⟨file, findings⟩ := group
  cases findings with
  | nil => exact absurd rfl filled
  | cons diagnostic findings =>
    obtain ⟨rfl, own⟩ := List.forall_mem_cons.1 own
    rw [List.cons_append, entries_cons colour base diagnostic _ fresh, entries_append colour base rest own,
      Group.written, List.map_cons, String.join_cons]
    simp only [String.append_assoc]

/-- The pass over the findings of some groups writes the groups. The file before stands for all that was
written so far. -/
theorem entries_groups (groups : List Group) (last : Option String)
    (filled : ∀ group ∈ groups, group.findings ≠ [])
    (own : ∀ group ∈ groups, ∀ diagnostic ∈ group.findings, diagnostic.file = group.file)
    (changed : groups.Pairwise fun one other => Path.same one.file other.file = false)
    (fresh : ∀ file ∈ last, ∀ group ∈ groups, Path.same file group.file = false) :
    entries colour base last (groups.flatMap (·.findings)) ++
        (if (groups.flatMap (·.findings)).isEmpty then gap last else "\n") =
      gap last ++ String.join (groups.map fun group => group.written colour base ++ "\n") := by
  induction groups generalizing last with
  | nil => exact String.empty_append.trans String.append_empty.symm
  | cons group groups ih =>
    obtain ⟨filled, filled'⟩ := List.forall_mem_cons.1 filled
    obtain ⟨own, own'⟩ := List.forall_mem_cons.1 own
    obtain ⟨changed, changed'⟩ := List.pairwise_cons.1 changed
    have alone : ∀ file ∈ last, Path.same file group.file = false :=
      fun file before => fresh file before group List.mem_cons_self
    have others : ∀ file ∈ some group.file, ∀ other ∈ groups, Path.same file other.file = false := by
      rintro _ ⟨⟩
      exact changed
    -- Behind a group the blank line is owed, whether another group follows or the summary.
    have behind : entries colour base (some group.file) (groups.flatMap (·.findings)) ++ "\n" =
        "\n" ++ String.join (groups.map fun group => group.written colour base ++ "\n") := by
      have written := ih (some group.file) filled' own' changed' others
      rwa [gap, ite_self] at written
    have more : (group.findings ++ groups.flatMap (·.findings)).isEmpty = false :=
      List.isEmpty_eq_false_iff.2 (List.append_ne_nil_of_left_ne_nil filled _)
    calc entries colour base last ((group :: groups).flatMap (·.findings)) ++ _
      _ = gap last ++ group.written colour base ++
            (entries colour base (some group.file) (groups.flatMap (·.findings)) ++ "\n") := by
        rw [List.flatMap_cons, more, entries_group colour base _ filled own alone, String.append_assoc]
        rfl
      _ = gap last ++ String.join ((group :: groups).map fun group => group.written colour base ++ "\n") := by
        rw [behind, List.map_cons, String.join_cons]
        simp only [String.append_assoc]

end Pass

section Lines

theorem EndsLine.behind {text : String} (ended : EndsLine text) (front : String) : EndsLine (front ++ text) := by
  obtain ⟨line, rfl⟩ := ended
  exact ⟨front ++ line, String.append_assoc.symm⟩

theorem EndsLine.join {front : String} {texts : List String} (ended : EndsLine front)
    (all : ∀ text ∈ texts, EndsLine text) : EndsLine (front ++ String.join texts) := by
  induction texts generalizing front with
  | nil => rwa [String.join_nil, String.append_empty]
  | cons text texts ih =>
    obtain ⟨first, all⟩ := List.forall_mem_cons.1 all
    rw [String.join_cons, ← String.append_assoc]
    exact ih (first.behind front) all

theorem endsLine_entry (colour : Bool) (diagnostic : Diagnostic) : EndsLine (diagnostic.entry colour) :=
  ⟨_, rfl⟩

theorem endsLine_written (colour : Bool) (base : String) (group : Group) :
    EndsLine (group.written colour base) := by
  have ended : EndsLine (heading colour base group.file) := ⟨_, rfl⟩
  refine ended.join (List.forall_mem_map.2 ?_)
  exact fun diagnostic _ => endsLine_entry colour diagnostic

end Lines

section Parts

variable {findings : List Diagnostic} {keys : List String}

/-- Some findings' part about the files that have a lower-case form. -/
def withKey (findings : List Diagnostic) (key : String) : List Diagnostic :=
  findings.filter (sortKey · == key)

theorem sortKey_of_mem_withKey (key : String) : ∀ diagnostic ∈ withKey findings key, sortKey diagnostic = key :=
  fun _ member => eq_of_beq (List.mem_filter.1 member).2

/-- Findings that may stand either way are in one part. -/
theorem filter_alike_withKey (findings : List Diagnostic) (diagnostic : Diagnostic) :
    (withKey findings (sortKey diagnostic)).filter (alike inOrder diagnostic) =
      findings.filter (alike inOrder diagnostic) := by
  rw [withKey, List.filter_filter]
  apply List.filter_congr
  intro other _
  by_cases close : alike inOrder diagnostic other = true
  · rw [close, sortKey_eq_of_alike close, beq_self_eq_true, Bool.and_self]
  · rw [Bool.eq_false_iff.2 close, Bool.false_and]

theorem withKey_flatMap (distinct : keys.Nodup) (all : ∀ diagnostic ∈ findings, sortKey diagnostic ∈ keys)
    (key : String) : withKey (keys.flatMap (withKey findings)) key = withKey findings key := by
  rw [withKey, filter_flatMap_own sortKey_of_mem_withKey]
  by_cases used : key ∈ keys
  · rw [List.count_eq_one_of_mem distinct used, List.replicate_one, List.flatten_singleton]
  · have unused : withKey findings key = [] := by
      apply List.filter_eq_nil_iff.2
      intro diagnostic member same
      exact used (eq_of_beq same ▸ all diagnostic member)
    rw [List.count_eq_zero_of_not_mem used, List.replicate_zero, List.flatten_nil, unused]

/-- Findings in order are their parts in the order of the lower-case forms. -/
theorem eq_flatMap_withKey (sorted : findings.Pairwise fun one other => inOrder one other = true)
    (ordered : keys.Pairwise (· < ·)) (all : ∀ diagnostic ∈ findings, sortKey diagnostic ∈ keys) :
    findings = keys.flatMap (withKey findings) := by
  have between {key key' : String} (less : key < key') : ∀ one ∈ withKey findings key,
      ∀ other ∈ withKey findings key', inOrder one other = true := by
    intro one member other member'
    rw [inOrder, sortKey_of_mem_withKey key one member, sortKey_of_mem_withKey key' other member',
      if_neg less.ne]
    exact Text.atMost_iff.2 less.le
  have joined : (keys.flatMap (withKey findings)).Pairwise fun one other => inOrder one other = true :=
    List.pairwise_flatMap.2 ⟨fun _ _ => sorted.filter _, ordered.imp between⟩
  apply eq_of_filter_eq inOrder_total sorted joined
  intro diagnostic
  rw [← filter_alike_withKey findings, ← filter_alike_withKey (keys.flatMap _),
    withKey_flatMap (ordered.imp ne_of_lt) all]

end Parts

section Groups

variable {report : Report} {path : String} {group : Group}

theorem mem_paths_iff : path ∈ report.paths ↔ ∃ diagnostic ∈ report.diagnostics, diagnostic.file = path := by
  rw [paths, List.mem_mergeSort, List.mem_dedup, List.mem_map]

theorem nodup_paths (report : Report) : report.paths.Nodup :=
  (List.mergeSort_perm _ _).nodup_iff.2 (List.nodup_dedup _)

/-- What is found in a file is what the sorted report holds of it. -/
theorem findingsIn_eq (report : Report) (path : String) :
    report.findingsIn path = report.sort.diagnostics.filter (·.file == path) := by
  -- Within a file the order of the report is that of the lines, so sorting by either is the same.
  have alike : ∀ one ∈ report.diagnostics.filter (·.file == path),
      ∀ other ∈ report.diagnostics.filter (·.file == path),
        decide (one.line ≤ other.line) = inOrder (id one) (id other) := by
    intro one member other member'
    have here : one.file = path := eq_of_beq (List.mem_filter.1 member).2
    have here' : other.file = path := eq_of_beq (List.mem_filter.1 member').2
    rw [id, id, inOrder, sortKey, sortKey, here, here', if_pos rfl]
  have sorted := List.map_mergeSort alike
  rw [List.map_id, List.map_id] at sorted
  rw [findingsIn, sorted, sort, filter_mergeSort_comm inOrder_total inOrder_trans]

theorem ordered_findingsIn (report : Report) (path : String) :
    (report.findingsIn path).Pairwise fun one other => one.line ≤ other.line := by
  refine (List.pairwise_mergeSort ?_ ?_ _).imp of_decide_eq_true
  · intro a b c first second
    exact decide_eq_true ((of_decide_eq_true first).trans (of_decide_eq_true second))
  · intro a b
    rw [Bool.or_eq_true, decide_eq_true_eq, decide_eq_true_eq]
    exact Nat.le_total a.line b.line

theorem mem_groups_iff : group ∈ report.groups ↔
    group.file ∈ report.paths ∧ group.findings = report.findingsIn group.file := by
  rw [groups, List.mem_map]
  constructor
  · rintro ⟨path, listed, rfl⟩
    exact ⟨listed, rfl⟩
  · rintro ⟨listed, same⟩
    exact ⟨group.file, listed, by rw [← same]⟩

theorem map_file_groups (report : Report) : report.groups.map (·.file) = report.paths := by
  rw [groups, List.map_map]
  exact List.map_id _

theorem findings_of_mem_groups (member : group ∈ report.groups) :
    group.findings = report.sort.diagnostics.filter (·.file == group.file) :=
  (mem_groups_iff.1 member).2.trans (findingsIn_eq report group.file)

theorem file_of_mem_findings (member : group ∈ report.groups) :
    ∀ diagnostic ∈ group.findings, diagnostic.file = group.file := by
  rw [findings_of_mem_groups member]
  exact fun diagnostic found => eq_of_beq (List.mem_filter.1 found).2

theorem exists_of_mem_groups (member : group ∈ report.groups) :
    ∃ diagnostic ∈ report.diagnostics, diagnostic.file = group.file :=
  mem_paths_iff.1 (mem_groups_iff.1 member).1

theorem findings_ne_nil (member : group ∈ report.groups) : group.findings ≠ [] := by
  obtain ⟨diagnostic, found, here⟩ := exists_of_mem_groups member
  have inside : diagnostic ∈ group.findings := by
    rw [findings_of_mem_groups member]
    exact List.mem_filter.2 ⟨List.mem_mergeSort.2 found, beq_iff_eq.2 here⟩
  exact List.ne_nil_of_mem inside

theorem summary_sort (report : Report) : report.sort.summary = report.summary := by
  have same := rearranges_sort report
  rw [summary, summary, same.count_eq, same.count_eq, same.files]

end Groups

section ToldApart

variable {report : Report}

theorem file_eq_of_sortKey (apart : ToldApart report) {one other : Diagnostic}
    (member : one ∈ report.diagnostics) (member' : other ∈ report.diagnostics)
    (key : sortKey one = sortKey other) : one.file = other.file :=
  apart.spelled one member other member' (apart.same one member other member' key)

/-- Files that are told apart have different lower-case forms, and these are in order. -/
theorem ordered_paths (apart : ToldApart report) :
    report.paths.Pairwise fun one other => Text.lowercase one < Text.lowercase other := by
  have sorted : report.paths.Pairwise fun one other => Text.lowercase one ≤ Text.lowercase other :=
    Text.pairwise_le_mergeSort Text.lowercase _
  refine (sorted.and (nodup_paths report)).imp_of_mem ?_
  intro one other listed listed' ⟨le, ne⟩
  obtain ⟨first, member, rfl⟩ := mem_paths_iff.1 listed
  obtain ⟨second, member', rfl⟩ := mem_paths_iff.1 listed'
  exact lt_of_le_of_ne le fun key => ne (file_eq_of_sortKey apart member member' key)

theorem ordered_groups (apart : ToldApart report) :
    report.groups.Pairwise fun one other => Text.lowercase one.file < Text.lowercase other.file := by
  have ordered := ordered_paths apart
  rwa [← map_file_groups, List.pairwise_map] at ordered

/-- Behind each group the pass meets another file. -/
theorem changed_groups (apart : ToldApart report) :
    report.groups.Pairwise fun one other => Path.same one.file other.file = false := by
  refine (ordered_groups apart).imp_of_mem ?_
  intro one other member member' less
  obtain ⟨first, found, here⟩ := exists_of_mem_groups member
  obtain ⟨second, found', here'⟩ := exists_of_mem_groups member'
  rw [← here, ← here'] at less ⊢
  rw [Bool.eq_false_iff]
  intro same
  exact less.ne (congrArg Text.lowercase (apart.spelled first found second found' same))

/-- Sorting brings the findings of each file together. -/
theorem sort_eq_flatMap_groups (apart : ToldApart report) :
    report.sort.diagnostics = report.groups.flatMap (·.findings) := by
  have sorted : report.sort.diagnostics.Pairwise fun one other => inOrder one other = true :=
    (ordered_sort report).imp inOrder_iff.2
  have all : ∀ diagnostic ∈ report.sort.diagnostics,
      sortKey diagnostic ∈ report.paths.map Text.lowercase := by
    intro diagnostic member
    exact List.mem_map_of_mem (mem_paths_iff.2 ⟨diagnostic, List.mem_mergeSort.1 member, rfl⟩)
  have alone : ∀ path ∈ report.paths,
      withKey report.sort.diagnostics (Text.lowercase path) = report.findingsIn path := by
    intro path listed
    obtain ⟨known, member, rfl⟩ := mem_paths_iff.1 listed
    rw [findingsIn_eq]
    apply List.filter_congr
    intro diagnostic member'
    rw [Bool.eq_iff_iff, beq_iff_eq, beq_iff_eq]
    exact ⟨file_eq_of_sortKey apart (List.mem_mergeSort.1 member') member, congrArg Text.lowercase⟩
  calc report.sort.diagnostics
    _ = (report.paths.map Text.lowercase).flatMap (withKey report.sort.diagnostics) :=
      eq_flatMap_withKey sorted (List.pairwise_map.2 (ordered_paths apart)) all
    _ = report.paths.flatMap report.findingsIn := by
      rw [List.flatMap_map]
      exact List.flatMap_congr alone
    _ = report.groups.flatMap (·.findings) := by rw [groups, List.flatMap_map]

end ToldApart

/-- The listing of a sorted report, which is written in one pass, is that of the findings of each file under
its heading. -/
theorem lists_by_file {report : Report} (apart : ToldApart report) (colour : Bool) (base : String) :
    ListsByFile colour base report where
  listing_eq := by
    have pass := entries_groups colour base report.groups none (fun _ => findings_ne_nil)
      (fun _ => file_of_mem_findings) (changed_groups apart) (fun _ before => nomatch before)
    rw [gap, String.empty_append, ← sort_eq_flatMap_groups apart] at pass
    rw [listing, pass, summary_sort, groupedListing]
  empty nothing := by
    rw [listing, summary_sort, sort, nothing, List.mergeSort_nil, entries]
    rfl
  once diagnostic member := by
    rw [map_file_groups]
    exact List.count_eq_one_of_mem (nodup_paths report) (mem_paths_iff.2 ⟨diagnostic, member, rfl⟩)
  filled _ := findings_ne_nil
  findings_eq _ := findings_of_mem_groups
  lines group member := by
    rw [(mem_groups_iff.1 member).2]
    exact ordered_findingsIn report group.file
  files := ordered_groups apart
  endsLine group _ := endsLine_written colour base group

def warned (file : String) (line column : Nat) : Diagnostic :=
  ⟨"p.txt", .warning, "No.", file, line, column, none, none⟩

/-- Findings in two files that do not stand together. -/
def scattered : Report where
  diagnostics := [warned "P/B.htm" 7 1, warned "P/a.htm" 9 3, warned "P/a.htm" 9 1, warned "P/B.htm" 2 5]
  files := 3

theorem lists_scattered : ToldApart scattered ∧ ListsByFile false "P" scattered ∧
    scattered.sort.listing false "P" =
      "a.htm\n      9:3  warning  No.  [p.txt]\n      9:1  warning  No.  [p.txt]\n\n" ++
      "B.htm\n      2:5  warning  No.  [p.txt]\n      7:1  warning  No.  [p.txt]\n\n" ++
      "Found 0 errors and 4 warnings in 3 files\n" := by
  have apart : ToldApart scattered := ⟨by decide +kernel, by decide +kernel⟩
  have lists := lists_by_file apart false "P"
  have files : scattered.paths = ["P/a.htm", "P/B.htm"] := by
    rw [paths, List.mergeSort_of_pairwise (by decide +kernel)]
    decide +kernel
  have first : scattered.findingsIn "P/a.htm" = [warned "P/a.htm" 9 3, warned "P/a.htm" 9 1] := by
    simp [findingsIn, scattered, warned, List.mergeSort]
  have second : scattered.findingsIn "P/B.htm" = [warned "P/B.htm" 2 5, warned "P/B.htm" 7 1] := by
    simp [findingsIn, scattered, warned, List.mergeSort]
  refine ⟨apart, lists, ?_⟩
  rw [lists.listing_eq, groupedListing, groups, files, List.map_cons, List.map_singleton, first, second]
  decide +kernel

end TopicLint.Report
