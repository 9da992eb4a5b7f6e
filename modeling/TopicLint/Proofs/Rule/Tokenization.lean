import TopicLint.Proofs.Rule.Cursor
import TopicLint.Proofs.Rule.Place

/-! The tokens of a source. Put together they give the text of the source; each stands where those
before it end, and is what the order of precedence makes of the text from there on. -/

namespace TopicLint.Rule

/-- Tokens, and one behind them, that cut a text of the given lines. -/
structure Tokenizes (text : List Char) (lines : List (List Char)) (body : List Token)
    (ending : Token) : Prop where
  divided : Divided lines
  flatten_eq : lines.flatten = text
  wording_eq : wording body = text
  placed : ∀ front token after, body = front ++ token :: after →
    token.line = lineBehind (wording front) ∧ token.column = columnBehind (wording front)
  chosen : ∀ front token after, body = front ++ token :: after →
    Chosen (token.column == 1) (wording (token :: after)) token.lexeme
  header_iff : ∀ k line, lines[k]? = some line →
    ((∃ token ∈ body, token.kind = .header ∧ token.line = k + 1) ↔ OpensSection line)
  header_column : ∀ token ∈ body, token.kind = .header → token.column = 1
  kind_ne : ∀ token ∈ body, token.kind ≠ .finish
  ending_eq : ending = ⟨.finish, "end of file", max 1 lines.length, 1⟩

/-- The plain text of a source is cut into its tokens, and nothing is lost; a reader that is asked for one
token after the other gives just these. -/
theorem tokenizes_source (source : String) :
    (∀ text, IsPlainText source text ↔ text = plainText source) ∧
    Tokenizes (plainText source) (lines (plainText source)) (bodyTokens source) (endToken source) ∧
    tokens source = bodyTokens source ++ [endToken source] ∧
    ∀ calls, Reader.results calls (Reader.start source) =
      (List.range calls).map ((tokens source)[·]?) := by
  obtain ⟨stop, scans⟩ := lexemes_bodyTokens_iff.1 (Eq.refl ((bodyTokens source).map Token.lexeme))
  have placed : Placed [] (bodyTokens source) := placed_scanLines (divided_sourceLines source) rfl rfl
  refine ⟨fun text => isPlainText_iff, ?_, rfl, Reader.results_start source⟩
  exact {
    divided := divided_lines _
    flatten_eq := flatten_lines _
    wording_eq := by
      rw [scans.wording_eq, List.append_nil, flatMap_lexeme]
    placed := fun front token after split => by
      rw [split] at placed
      exact placed.at
    chosen := fun front token after split => by
      rw [split] at placed scans
      exact List.append_nil (wording (token :: after)) ▸ scans.chosen_at placed rfl
    header_iff := fun k line found => by
      rw [Nat.add_comm k, bodyTokens_eq]
      exact header_mem_scanLines_iff 1 found
    header_column := fun token member => (of_mem_scanLines member).2
    kind_ne := fun token member finish => by
      have allowed := allows_of_mem_bodyTokens member
      rw [finish] at allowed
      cases allowed
    ending_eq := by rw [endToken, sourceLines_eq, Token.ending] }

end TopicLint.Rule
