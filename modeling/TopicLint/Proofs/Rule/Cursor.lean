import TopicLint.Proofs.Rule.Lexeme
import TopicLint.Rule.Reader

/-! Reading tokens one at a time. A reader stands before the tokens that are left of its source; a
move takes the first of them away, until only the one at the end is left. So the tokens that it gives
are all tokens of the source, and then no more. -/

namespace TopicLint.Rule

namespace Reader

/-- The tokens of lines that are not cut yet, and the one behind them. -/
def unreadTokens (unread : List (List Char)) (line : Nat) : List Token :=
  scanLines (line + 1) unread ++ [Token.ending (max 1 (line + unread.length))]

/-- What a reader has still to read: its current token and those behind it. -/
inductive Ahead : Reader → List Token → Prop where
  | within {reader : Reader} (inside : reader.current.kind ≠ .finish)
      (solid : ∀ token ∈ reader.pending, token.kind ≠ .finish) :
      Ahead reader (reader.current :: (reader.pending ++ unreadTokens reader.unread reader.line))
  | ended {reader : Reader} (last : reader.current = Token.ending (max 1 reader.line))
      (taken : reader.pending = []) (cut : reader.unread = []) : Ahead reader [reader.current]

/-- What a reader gives when it is asked for a token again and again. -/
def results : Nat → Reader → List (Option Token)
  | 0, _ => []
  | calls + 1, reader => reader.next.1 :: results calls reader.next.2

section Moves

variable {reader : Reader} {token : Token} {rest : List Token}

theorem kind_ne_of_mem_scanLine {line column : Nat} {text : List Char}
    (member : token ∈ scanLine line column text) : token.kind ≠ .finish := by
  intro finish
  have allowed := allows_of_mem_scanLine member
  rw [finish] at allowed
  cases allowed

theorem ahead_refill (reader : Reader) (unread : List (List Char)) (line : Nat) :
    Ahead (reader.refill unread line) (unreadTokens unread line) := by
  fun_induction refill reader unread line with
  | case1 line => exact @Ahead.ended ⟨_, _, _, _, _⟩ rfl rfl rfl
  | case2 text rest line nothing ih =>
    rw [unreadTokens, scanLines, nothing, List.nil_append, List.length_cons, Nat.add_comm rest.length,
      ← Nat.add_assoc]
    exact ih
  | case3 text rest line token more found =>
    have inside {token : Token} (member : token ∈ scanLine (line + 1) 1 text) :=
      kind_ne_of_mem_scanLine member
    rw [found] at inside
    have stands := @Ahead.within
      { reader with current := token, pending := more, unread := rest, line := line + 1 }
      (inside List.mem_cons_self) fun other member => inside (List.mem_cons_of_mem _ member)
    rw [unreadTokens, scanLines, found, List.length_cons, Nat.add_comm rest.length, ← Nat.add_assoc,
      List.append_assoc]
    exact stands

theorem ahead_start (source : String) : Ahead (start source) (tokens source) := by
  have stands := ahead_refill ⟨Token.ending 1, [], sourceLines source, 0, false⟩ (sourceLines source) 0
  rw [unreadTokens, Nat.zero_add, Nat.zero_add] at stands
  exact stands

theorem advance_of_pending {more : List Token} (found : reader.pending = token :: more) :
    reader.advance = { reader with current := token, pending := more } := by
  rw [advance, found]

theorem advance_of_taken (taken : reader.pending = []) :
    reader.advance = reader.refill reader.unread reader.line := by
  rw [advance, taken]

/-- A move takes the current token away. -/
theorem Ahead.advance {next : Token} (ahead : Ahead reader (token :: next :: rest)) :
    Ahead reader.advance (next :: rest) := by
  generalize listed : token :: next :: rest = left at ahead
  cases ahead with
  | ended => cases listed
  | within inside solid =>
    obtain ⟨rfl, behind⟩ := List.cons.inj listed
    cases found : reader.pending with
    | nil =>
      rw [found, List.nil_append] at behind
      rw [behind, advance_of_taken found]
      exact ahead_refill reader reader.unread reader.line
    | cons first more =>
      rw [found] at behind solid
      rw [behind, advance_of_pending found]
      exact @Ahead.within { reader with current := first, pending := more }
        (solid first List.mem_cons_self) fun other member => solid other (List.mem_cons_of_mem _ member)

theorem Ahead.current_eq (ahead : Ahead reader (token :: rest)) : reader.current = token := by
  generalize listed : token :: rest = left at ahead
  cases ahead with
  | within => exact (List.cons.inj listed).1.symm
  | ended => exact (List.cons.inj listed).1.symm

/-- Just the last token is of the kind that ends a source. -/
theorem Ahead.finish_iff (ahead : Ahead reader (token :: rest)) : token.kind = .finish ↔ rest = [] := by
  generalize listed : token :: rest = left at ahead
  cases ahead with
  | within inside =>
    obtain ⟨rfl, rfl⟩ := List.cons.inj listed
    refine ⟨fun finish => absurd finish inside, fun nothing => ?_⟩
    exact absurd (List.append_eq_nil_iff.1 (List.append_eq_nil_iff.1 nothing).2).2 (List.cons_ne_nil _ _)
  | ended last =>
    obtain ⟨rfl, rfl⟩ := List.cons.inj listed
    exact ⟨fun _ => rfl, fun _ => last ▸ rfl⟩

theorem finished_refill (unread : List (List Char)) (line : Nat) :
    (reader.refill unread line).finished = reader.finished := by
  fun_induction refill reader unread line with
  | case1 => rfl
  | case2 text rest line nothing ih => exact ih
  | case3 => rfl

theorem finished_advance : reader.advance.finished = reader.finished := by
  cases found : reader.pending with
  | nil => rw [advance_of_taken found, finished_refill]
  | cons token more => rw [advance_of_pending found]

theorem results_of_finished (finished : reader.finished = true) (calls : Nat) :
    results calls reader = List.replicate calls none := by
  induction calls with
  | zero => rfl
  | succ calls ih => rw [results, next, if_pos finished, ih, List.replicate_succ]

theorem next_inside {second : Token} (ahead : Ahead reader (token :: second :: rest))
    (going : reader.finished = false) : reader.next = (some token, reader.advance) := by
  have inside : token.kind ≠ .finish := fun finish => List.cons_ne_nil _ _ (ahead.finish_iff.1 finish)
  rw [next, going, if_neg Bool.false_ne_true, ahead.current_eq, if_neg (by simpa using inside)]

theorem next_ended (ahead : Ahead reader [token]) (going : reader.finished = false) :
    reader.next = (some token, { reader with finished := true }) := by
  have ended : token.kind = .finish := ahead.finish_iff.2 rfl
  rw [next, going, if_neg Bool.false_ne_true, ahead.current_eq, if_pos (by simpa using ended)]

/-- The tokens that are left come one after the other, and then none. -/
theorem results_of_ahead {left : List Token} (ahead : Ahead reader left)
    (going : reader.finished = false) (calls : Nat) :
    results calls reader = (List.range calls).map (left[·]?) := by
  induction calls generalizing reader left with
  | zero => rfl
  | succ calls ih =>
    rw [results, List.range_succ_eq_map, List.map_cons, List.map_map]
    match left, ahead with
    | [token], ahead =>
      rw [next_ended ahead going, results_of_finished rfl]
      have none_behind : (List.range calls).map (([token][·]?) ∘ Nat.succ) =
          List.replicate (List.range calls).length none :=
        List.map_eq_replicate_iff.2 fun _ _ => rfl
      rw [none_behind, List.length_range]
      rfl
    | token :: second :: rest, ahead =>
      rw [next_inside ahead going, ih ahead.advance (finished_advance.trans going)]
      rfl

end Moves

/-- A reader of a source gives all its tokens in order. -/
theorem results_start (source : String) (calls : Nat) :
    results calls (start source) = (List.range calls).map ((tokens source)[·]?) :=
  results_of_ahead (ahead_start source) (finished_refill _ _) calls

end Reader

end TopicLint.Rule
