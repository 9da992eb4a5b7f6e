import TopicLint.Document.Node
import TopicLint.Proofs.Rule.Word

/-! Names and the texts that stand for them. The expanded text of a name with a local part determines the
name, and so does the text that it is shown with: written in a query, this one expands to the former. -/

namespace TopicLint.Name

/-- A text that can be the local part of a name: it holds nothing that separates the parts of expanded and
written names, and it is not what stands for every name. -/
structure IsLocal (base : String) : Prop where
  colon : ':' ∉ base.toList
  opening : '\x7b' ∉ base.toList
  closing : '\x7d' ∉ base.toList
  single : base ≠ anyName

section Texts

variable {name other : Name} {space base : String}

theorem toList_inSpace (space base : String) :
    (inSpace space base).toList = '\x7b' :: (space.toList ++ '\x7d' :: base.toList) := by
  simp only [inSpace, String.toList_append, List.append_assoc]
  rfl

/-- A text is cut in one way at its last mark. -/
theorem last_unique {α : Type} {mark : α} {one two more rest : List α} (free : mark ∉ more)
    (free' : mark ∉ rest) (same : one ++ mark :: more = two ++ mark :: rest) :
    one = two ∧ more = rest := by
  rcases List.append_eq_append_iff.1 same with ⟨between, rfl, split⟩ | ⟨between, rfl, split⟩
  · cases between with
    | nil => exact ⟨(List.append_nil one).symm, (List.cons.inj split).2⟩
    | cons first between =>
      obtain ⟨-, rfl⟩ := List.cons.inj split
      exact absurd (List.mem_append_right _ List.mem_cons_self) free
  · cases between with
    | nil => exact ⟨List.append_nil two, (List.cons.inj split).2.symm⟩
    | cons first between =>
      obtain ⟨-, rfl⟩ := List.cons.inj split
      exact absurd (List.mem_append_right _ List.mem_cons_self) free'

theorem inSpace_ne (plain : '\x7b' ∉ other.base.toList) : inSpace space base ≠ other.base := by
  intro same
  apply plain
  rw [← same, toList_inSpace]
  exact List.mem_cons_self

/-- The expanded text of a name determines it. -/
theorem expanded_inj (isLocal : IsLocal name.base) (isLocal' : IsLocal other.base) :
    name.expanded = other.expanded ↔ name = other := by
  refine ⟨fun same => ?_, congrArg expanded⟩
  obtain ⟨space, base⟩ := name
  obtain ⟨space', base'⟩ := other
  cases space with
  | none =>
    cases space' with
    | none => exact congrArg (Name.mk none) same
    | some space' => exact absurd same.symm (inSpace_ne isLocal.opening)
  | some space =>
    cases space' with
    | none => exact absurd same (inSpace_ne isLocal'.opening)
    | some space' =>
      have texts := congrArg String.toList same
      simp only [expanded, toList_inSpace, List.cons.injEq, true_and] at texts
      obtain ⟨spaces, bases⟩ := last_unique isLocal.closing isLocal'.closing texts
      obtain rfl := String.toList_inj.1 spaces
      obtain rfl : base = base' := String.toList_inj.1 bases
      rfl

theorem expand_of_notMem {written : String} (free : ':' ∉ written.toList) : expand written = written := by
  rw [expand, Text.cutFirst?, Rule.cutFirst_eq_none free]
  rfl

/-- A text that starts with a brace is no prefix that queries may write. -/
theorem expand_inSpace (space base : String) : expand (inSpace space base) = inSpace space base := by
  have text := toList_inSpace space base
  unfold expand Text.cutFirst?
  cases cut : Text.cutFirst ':' (inSpace space base).toList with
  | none => rfl
  | some sides =>
    obtain ⟨front, back⟩ := sides
    have whole := Rule.eq_of_cutFirst cut
    rw [text] at whole
    -- What is in front of the colon starts with the brace.
    have braced : ∃ rest, front = '\x7b' :: rest := by
      cases front with
      | nil => exact absurd (List.cons.inj whole).1 (by decide)
      | cons first rest => exact ⟨rest, by rw [(List.cons.inj whole).1]⟩
    obtain ⟨rest, rfl⟩ := braced
    have unknown : knownPrefixes.lookup (String.ofList ('\x7b' :: rest)) = none := by
      have apart (written : String) (first : written.toList.head? ≠ some '\x7b') :
          (String.ofList ('\x7b' :: rest) == written) = false := by
        rw [beq_eq_false_iff_ne]
        rintro rfl
        exact first (by rw [String.toList_ofList]; rfl)
      rw [knownPrefixes, List.lookup_cons, apart "MadCap" (by decide), List.lookup_cons,
        apart "xml" (by decide)]
      rfl
    simp only [Option.map_some, unknown]

/-- What a name is shown with expands to the name. -/
theorem expand_shown (isLocal : IsLocal name.base) : expand name.shown = name.expanded := by
  obtain ⟨space, base⟩ := name
  cases space with
  | none => exact expand_of_notMem isLocal.colon
  | some space =>
    by_cases topic : space = topicSpace
    · subst topic
      have text : ("MadCap:" ++ base).toList = "MadCap".toList ++ ':' :: base.toList := by
        rw [String.toList_append]
        rfl
      have cut : Text.cutFirst? ':' ("MadCap:" ++ base) = some ("MadCap", base) := by
        rw [Text.cutFirst?, text, Rule.cutFirst_of_notMem (by decide)]
        simp
      rw [shown, if_pos rfl, expand, cut]
      rfl
    · have other : some space ≠ some topicSpace := fun same => topic (Option.some.inj same)
      rw [shown, if_neg other]
      exact expand_inSpace space base

/-- What a name is shown with determines it. -/
theorem shown_inj (isLocal : IsLocal name.base) (isLocal' : IsLocal other.base) :
    name.shown = other.shown ↔ name = other := by
  refine ⟨fun same => ?_, congrArg shown⟩
  rw [← expanded_inj isLocal isLocal', ← expand_shown isLocal, ← expand_shown isLocal', same]

/-- No name is shown with what stands for every name. -/
theorem shown_ne_anyName (isLocal : IsLocal name.base) : name.shown ≠ anyName := by
  intro same
  have expanded : name.expanded = anyName := by
    rw [← expand_shown isLocal, same]
    decide
  obtain ⟨space, base⟩ := name
  cases space with
  | none => exact isLocal.single expanded
  | some space =>
    have texts := congrArg String.toList expanded
    rw [Name.expanded, toList_inSpace] at texts
    exact absurd (List.cons.inj texts).1 (by decide)

end Texts

end TopicLint.Name
