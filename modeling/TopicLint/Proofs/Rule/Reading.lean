import TopicLint.Proofs.Rule.Cursor

/-! A reader is a cursor over the tokens of its source. It scans a line only when it has to, and keeps
tokens of that line aside; but in whatever order it is moved on, led past blanks and asked for tokens,
what it shows and gives is what a number that goes up along the list of all tokens would. -/

namespace TopicLint.Rule

/-- What can be asked of a reader. -/
inductive Call where
  | advance
  | skipBlank
  | next
  deriving DecidableEq, Repr

/-- Answers a call: the token that is given, if any, and the reader afterwards. -/
def Reader.answer : Call → Reader → Option Token × Reader
  | .advance, reader => (none, reader.advance)
  | .skipBlank, reader => (none, reader.skipBlank)
  | .next, reader => reader.next

/-- A place among listed tokens, and whether the last of them has been taken. -/
structure Cursor where
  index : Nat
  taken : Bool
  deriving DecidableEq, Repr

namespace Cursor

def start : Cursor := ⟨0, false⟩

/-- The number of the nearest token that is not blank, from a number on. -/
structure NextSolid (listed : List Token) (first found : Nat) : Prop where
  behind : first ≤ found
  solid : ∃ token, listed[found]? = some token ∧ token.isBlank = false
  blank : ∀ k, first ≤ k → k < found → ∃ token, listed[k]? = some token ∧ token.isBlank = true

theorem nextSolid_here {listed : List Token} {index : Nat} {token : Token}
    (here : listed[index]? = some token) (solid : token.isBlank = false) :
    NextSolid listed index index where
  behind := Nat.le_refl index
  solid := ⟨token, here, solid⟩
  blank _ low high := absurd high (Nat.not_lt_of_le low)

theorem NextSolid.before {listed : List Token} {index found : Nat} {token : Token}
    (nearest : NextSolid listed (index + 1) found) (here : listed[index]? = some token)
    (blank : token.isBlank = true) : NextSolid listed index found where
  behind := Nat.le_of_succ_le nearest.behind
  solid := nearest.solid
  blank k low high := by
    by_cases first : k = index
    · exact ⟨token, first ▸ here, blank⟩
    · exact nearest.blank k (by omega) high

/-- How a call moves a cursor, and what it gives. Moving on stops at the last token; the last token is
given once, and then nothing. -/
inductive Step (listed : List Token) : Call → Cursor → Option Token → Cursor → Prop where
  | advance (index : Nat) (taken : Bool) :
      Step listed .advance ⟨index, taken⟩ none ⟨min (index + 1) (listed.length - 1), taken⟩
  | skipBlank {index found : Nat} (taken : Bool) (nearest : NextSolid listed index found) :
      Step listed .skipBlank ⟨index, taken⟩ none ⟨found, taken⟩
  | next {index : Nat} {token : Token} (here : listed[index]? = some token)
      (more : index + 1 < listed.length) :
      Step listed .next ⟨index, false⟩ (some token) ⟨index + 1, false⟩
  | last {index : Nat} {token : Token} (here : listed[index]? = some token)
      (end_eq : index + 1 = listed.length) :
      Step listed .next ⟨index, false⟩ (some token) ⟨index, true⟩
  | exhausted {index : Nat} (end_eq : index + 1 = listed.length) :
      Step listed .next ⟨index, true⟩ none ⟨index, true⟩

end Cursor

/-- A reader shows the token at a cursor. It shows a token of the kind that ends a source just at the
end of the list, and there always the same one. -/
structure Shows (source : String) (reader : Reader) (cursor : Cursor) : Prop where
  current_eq : (tokens source)[cursor.index]? = some reader.current
  finish_iff : reader.current.kind = .finish ↔ cursor.index + 1 = (tokens source).length
  ending_eq : reader.current.kind = .finish → reader.current = endToken source

/-- A reader that is called again and again keeps step with a cursor: it shows the token at the cursor
before and after each call, and each call gives what it gives there. -/
inductive KeepsStep (source : String) : Reader → Cursor → List Call → Prop where
  | done {reader : Reader} {cursor : Cursor} (shows : Shows source reader cursor) :
      KeepsStep source reader cursor []
  | call {reader : Reader} {cursor moved : Cursor} {call : Call} {more : List Call}
      (shows : Shows source reader cursor)
      (step : Cursor.Step (tokens source) call cursor (reader.answer call).1 moved)
      (further : KeepsStep source (reader.answer call).2 moved more) :
      KeepsStep source reader cursor (call :: more)

namespace Reader

section Lengths

variable {reader : Reader} {left : List Token}

theorem length_scanLine_le (line column : Nat) (text : List Char) :
    (scanLine line column text).length ≤ text.length := by
  fun_induction scanLine line column text with
  | case1 => exact Nat.le_refl 0
  | case2 line c rest text kind length ih =>
    rw [List.length_drop] at ih
    simp only [List.length_cons]
    omega

theorem length_scanLines_le (line : Nat) (unread : List (List Char)) :
    (scanLines line unread).length ≤ unread.flatten.length := by
  induction unread generalizing line with
  | nil => exact Nat.le_refl 0
  | cons text rest ih =>
    have here := length_scanLine_le line 1 text
    have behind := ih (line + 1)
    simp only [scanLines, List.length_append, List.flatten_cons]
    omega

/-- A reader looks far enough ahead to reach the end of what is left. -/
theorem Ahead.length_le (ahead : Ahead reader left) : left.length ≤ reader.ahead + 2 := by
  cases ahead with
  | within =>
    have bound := length_scanLines_le (reader.line + 1) reader.unread
    simp only [Reader.ahead, unreadTokens, List.length_cons, List.length_append, List.length_nil]
    omega
  | ended => simp

theorem Ahead.ne_nil (ahead : Ahead reader left) : left ≠ [] := by
  cases ahead with
  | within => exact List.cons_ne_nil _ _
  | ended => exact List.cons_ne_nil _ _

end Lengths

section Steps

variable {reader : Reader} {listed : List Token} {token : Token} {index moves : Nat}

theorem advance_ended (ahead : Ahead reader [token]) : reader.advance = reader := by
  generalize single : [token] = left at ahead
  cases ahead with
  | within =>
    have short := congrArg List.length single
    simp [unreadTokens] at short
  | ended last taken cut =>
    rw [advance_of_taken taken, cut, refill, ← last, ← taken, ← cut]

/-- A reader stands before the token with a number in a list and those behind it. -/
def AheadFrom (listed : List Token) (reader : Reader) (index : Nat) : Prop :=
  Ahead reader (listed.drop index)

theorem AheadFrom.lt_length (ahead : AheadFrom listed reader index) : index < listed.length := by
  have some_left := Ahead.ne_nil ahead
  rw [Ne, List.drop_eq_nil_iff] at some_left
  omega

theorem AheadFrom.drop_eq (ahead : AheadFrom listed reader index) :
    listed.drop index = reader.current :: listed.drop (index + 1) := by
  have cut := List.drop_eq_getElem_cons ahead.lt_length
  have left : Ahead reader (listed.drop index) := ahead
  rw [cut] at left
  rw [cut, left.current_eq]

theorem AheadFrom.current_eq (ahead : AheadFrom listed reader index) :
    listed[index]? = some reader.current := by
  have first := congrArg (·[0]?) ahead.drop_eq
  simpa using first

theorem AheadFrom.finish_iff (ahead : AheadFrom listed reader index) :
    reader.current.kind = .finish ↔ index + 1 = listed.length := by
  have bound := ahead.lt_length
  have left : Ahead reader (reader.current :: listed.drop (index + 1)) := ahead.drop_eq ▸ ahead
  rw [left.finish_iff, List.drop_eq_nil_iff]
  omega

theorem AheadFrom.advance_end (ahead : AheadFrom listed reader index)
    (end_eq : index + 1 = listed.length) : reader.advance = reader := by
  have nothing : listed.drop (index + 1) = [] := List.drop_eq_nil_of_le (Nat.le_of_eq end_eq.symm)
  have left : Ahead reader [reader.current] := nothing ▸ ahead.drop_eq ▸ ahead
  exact advance_ended left

theorem AheadFrom.advance_more (ahead : AheadFrom listed reader index)
    (more : index + 1 < listed.length) : AheadFrom listed reader.advance (index + 1) := by
  have left : Ahead reader (reader.current :: listed.drop (index + 1)) := ahead.drop_eq ▸ ahead
  unfold AheadFrom
  rw [List.drop_eq_getElem_cons more] at left ⊢
  exact left.advance

/-- Moving on goes up by one and stops at the last token. -/
theorem AheadFrom.advance (ahead : AheadFrom listed reader index) :
    AheadFrom listed reader.advance (min (index + 1) (listed.length - 1)) := by
  have bound := ahead.lt_length
  by_cases end_eq : index + 1 = listed.length
  · have stays : min (index + 1) (listed.length - 1) = index := by omega
    rw [stays, ahead.advance_end end_eq]
    exact ahead
  · have goes : min (index + 1) (listed.length - 1) = index + 1 := by omega
    rw [goes]
    exact ahead.advance_more (by omega)

theorem not_blank_of_finish (finish : token.kind = .finish) : token.isBlank = false := by
  simp [Token.isBlank, finish]

theorem finished_skipBlankWithin :
    (skipBlankWithin moves reader).finished = reader.finished := by
  induction moves generalizing reader with
  | zero => rfl
  | succ moves ih =>
    unfold skipBlankWithin
    split
    · rw [ih, finished_advance]
    · rfl

/-- Enough moves lead past all blanks: the last token of the list is not blank. -/
theorem AheadFrom.skipBlankWithin (ahead : AheadFrom listed reader index)
    (enough : listed.length ≤ index + moves + 1) :
    ∃ found, Cursor.NextSolid listed index found ∧
      AheadFrom listed (skipBlankWithin moves reader) found := by
  induction moves generalizing reader index with
  | zero =>
    have bound := ahead.lt_length
    have solid := not_blank_of_finish (ahead.finish_iff.2 (by omega))
    exact ⟨index, Cursor.nextSolid_here ahead.current_eq solid, ahead⟩
  | succ moves ih =>
    unfold Reader.skipBlankWithin
    split
    next blank =>
      have bound := ahead.lt_length
      -- A blank token is not the last one, so that there is another to move on to.
      have inside : index + 1 ≠ listed.length := by
        intro end_eq
        rw [not_blank_of_finish (ahead.finish_iff.2 end_eq)] at blank
        cases blank
      obtain ⟨found, nearest, reached⟩ := ih (ahead.advance_more (by omega)) (by omega)
      exact ⟨found, nearest.before ahead.current_eq blank, reached⟩
    next solid =>
      exact ⟨index, Cursor.nextSolid_here ahead.current_eq (eq_false_of_ne_true solid), ahead⟩

theorem AheadFrom.skipBlank (ahead : AheadFrom listed reader index) :
    ∃ found, Cursor.NextSolid listed index found ∧ AheadFrom listed reader.skipBlank found := by
  apply ahead.skipBlankWithin
  have bound := Ahead.length_le ahead
  rw [List.length_drop] at bound
  omega

theorem AheadFrom.finish (ahead : AheadFrom listed reader index) :
    AheadFrom listed { reader with finished := true } index := by
  unfold AheadFrom at *
  generalize listed.drop index = left at ahead
  cases ahead with
  | within inside solid => exact @Ahead.within { reader with finished := true } inside solid
  | ended last taken cut => exact @Ahead.ended { reader with finished := true } last taken cut

end Steps

/-- A reader stands where a cursor stands. The last token is taken only once it is reached. -/
structure At (listed : List Token) (reader : Reader) (cursor : Cursor) : Prop where
  ahead : AheadFrom listed reader cursor.index
  taken_eq : reader.finished = cursor.taken
  taken_end : cursor.taken = true → cursor.index + 1 = listed.length

section Calls

variable {reader : Reader} {listed : List Token} {cursor : Cursor}

theorem at_start (source : String) : At (tokens source) (start source) Cursor.start where
  ahead := ahead_start source
  taken_eq := finished_refill _ _
  taken_end taken := absurd taken Bool.false_ne_true

theorem At.advance (stands : At listed reader cursor) :
    ∃ moved, Cursor.Step listed .advance cursor none moved ∧ At listed reader.advance moved := by
  refine ⟨_, .advance cursor.index cursor.taken, stands.ahead.advance, ?_, fun taken => ?_⟩
  · exact finished_advance.trans stands.taken_eq
  · have end_eq := stands.taken_end taken
    dsimp only
    omega

theorem At.skipBlank (stands : At listed reader cursor) :
    ∃ moved, Cursor.Step listed .skipBlank cursor none moved ∧ At listed reader.skipBlank moved := by
  obtain ⟨found, nearest, reached⟩ := stands.ahead.skipBlank
  refine ⟨_, .skipBlank cursor.taken nearest, reached, ?_, fun taken => ?_⟩
  · exact finished_skipBlankWithin.trans stands.taken_eq
  · have end_eq := stands.taken_end taken
    have low := nearest.behind
    have high := reached.lt_length
    dsimp only
    omega

theorem At.next (stands : At listed reader cursor) :
    ∃ moved, Cursor.Step listed .next cursor reader.next.1 moved ∧ At listed reader.next.2 moved := by
  obtain ⟨index, taken⟩ := cursor
  obtain ⟨ahead, taken_eq, taken_end⟩ := stands
  dsimp only at ahead taken_eq taken_end
  have bound := ahead.lt_length
  have here := ahead.current_eq
  have left : Ahead reader (reader.current :: listed.drop (index + 1)) := ahead.drop_eq ▸ ahead
  cases taken with
  | true =>
    have refused : reader.next = (none, reader) := by rw [next, if_pos taken_eq]
    rw [refused]
    exact ⟨_, .exhausted (taken_end rfl), ahead, taken_eq, taken_end⟩
  | false =>
    by_cases end_eq : index + 1 = listed.length
    · rw [List.drop_eq_nil_of_le (Nat.le_of_eq end_eq.symm)] at left
      rw [next_ended left taken_eq]
      exact ⟨_, .last here end_eq, ahead.finish, rfl, fun _ => end_eq⟩
    · have more : index + 1 < listed.length := by omega
      rw [List.drop_eq_getElem_cons more] at left
      rw [next_inside left taken_eq]
      have untaken : ¬ (Cursor.mk (index + 1) false).taken = true := Bool.false_ne_true
      exact ⟨_, .next here more, ahead.advance_more more, finished_advance.trans taken_eq,
        fun taken => absurd taken untaken⟩

/-- Every call moves the cursor on. -/
theorem At.answer (stands : At listed reader cursor) (call : Call) :
    ∃ moved, Cursor.Step listed call cursor (reader.answer call).1 moved ∧
      At listed (reader.answer call).2 moved := by
  cases call with
  | advance => exact stands.advance
  | skipBlank => exact stands.skipBlank
  | next => exact stands.next

theorem At.shows {source : String} (stands : At (tokens source) reader cursor) :
    Shows source reader cursor where
  current_eq := stands.ahead.current_eq
  finish_iff := stands.ahead.finish_iff
  ending_eq finish := by
    have here := stands.ahead.current_eq
    have last : (tokens source).getLast? = some (endToken source) := List.getLast?_concat
    have end_eq : cursor.index = (tokens source).length - 1 := by
      have := stands.ahead.finish_iff.1 finish
      omega
    rw [end_eq, ← List.getLast?_eq_getElem?, last] at here
    exact (Option.some.inj here).symm

theorem At.keepsStep {source : String} (stands : At (tokens source) reader cursor)
    (calls : List Call) : KeepsStep source reader cursor calls := by
  induction calls generalizing reader cursor with
  | nil => exact .done stands.shows
  | cons call more ih =>
    obtain ⟨moved, step, further⟩ := stands.answer call
    exact .call stands.shows step (ih further)

end Calls

/-- Whatever is asked of a reader in whatever order, it goes through the tokens of its source as a
cursor does that starts at the first of them. -/
theorem keepsStep_start (source : String) (calls : List Call) :
    KeepsStep source (start source) Cursor.start calls :=
  (at_start source).keepsStep calls

end Reader

end TopicLint.Rule
