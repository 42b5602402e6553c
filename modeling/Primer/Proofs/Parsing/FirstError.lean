import Primer.Proofs.Parsing.Completion

/-!
# Where syntax errors are reported

A parser that fails has passed the longest start of the input that begins some program: what it has
passed can be completed, and no input with the same tokens up to and including the current one is
accepted.
-/

namespace Primer

private theorem left_ne_nil {passed left : Tokens}
    (proper : ∀ lexeme ∈ passed, lexeme.token ≠ .endOfInput)
    (ended : (passed ++ left).getLast?.map Lexeme.token = some .endOfInput) : left ≠ [] := by
  rintro rfl
  rw [List.append_nil, Option.map_eq_some_iff] at ended
  obtain ⟨last, isLast, token⟩ := ended
  exact proper last (List.mem_of_getLast? isLast) token

private theorem parseTokens_error {tokens left : Tokens} {error : ParseError}
    (failed : Grammar.program tokens = .error error left) : parseTokens tokens = .error error := by
  simp only [parseTokens, EStateM.run, failed]

private theorem parseTokens_ok {tokens left : Tokens} {block : Block}
    (parsed : Grammar.program tokens = .ok block left) : parseTokens tokens = .ok block := by
  simp only [parseTokens, EStateM.run, parsed]

/-- The token at `k` is the first that cannot extend a program: every input that agrees up to that
token is refused in the same way, and some input that agrees before it is a program. -/
structure RefusedAt (tokens : Tokens) (error : ParseError) (k : Nat) : Prop where
  located : tokens[k]?.map Lexeme.span = some error.span
  refused : ∀ others : Tokens, tokens.take (k + 1) <+: others → parseTokens others = .error error
  viable : ∃ (others : Tokens) (program : Block), tokens.take k <+: others ∧
    others.getLast?.map Lexeme.token = some .endOfInput ∧ parseTokens others = .ok program

/-- A syntax error is reported at the first token that cannot extend a program. -/
theorem error_at_first_unviable_token {tokens left : Tokens} {error : ParseError}
    (ended : tokens.getLast?.map Lexeme.token = some .endOfInput)
    (failed : Grammar.program.run tokens = .error error left) :
    ∃ k, left = tokens.drop k ∧ k < tokens.length ∧ RefusedAt tokens error k := by
  obtain ⟨passed, rest, outcome, rfl, run⟩ :=
    (Grammar.startable_program tokens.length).viable tokens (Nat.le_refl _)
  obtain ⟨rfl, rfl⟩ : outcome = .error error ∧ rest = left := by
    have same : leaving rest outcome = .error error left := (run.looks rest rfl).symm.trans failed
    cases outcome with
    | ok => exact absurd same nofun
    | error =>
      obtain ⟨rfl, rfl⟩ := EStateM.Result.error.inj same
      exact ⟨rfl, rfl⟩
  -- The end of input is never passed, so a token is left for the error to be reported at.
  obtain ⟨found, behind, rfl⟩ := List.exists_cons_of_ne_nil (left_ne_nil run.proper ended)
  have upToFound : (passed ++ found :: behind).take (passed.length + 1) = passed ++ [found] := by
    rw [List.append_cons, List.take_left' (by simp)]
  have located : error.span = found.span := Grammar.span_of_program_error failed
  refine ⟨passed.length, by simp, by simp, by simp [located], ?_, ?_⟩
  -- Another input with these tokens starts the same run, which looks no further.
  · rintro others ⟨more, rfl⟩
    rw [upToFound, List.append_assoc]
    exact parseTokens_error (run.looks (found :: more) rfl)
  -- What has been passed is completed; if nothing has, the empty program begins with it.
  · obtain ⟨missing, completes⟩ :
        ∃ missing, Completes (· = .endOfInput) Grammar.program (passed ++ missing) := by
      by_cases nothing : passed = []
      · subst nothing
        exact ⟨[], (Grammar.startable_program 0).fresh⟩
      · exact run.completes nothing
    obtain ⟨program, parsed⟩ := completes [Grammar.bare .endOfInput] rfl
    refine ⟨passed ++ missing ++ [Grammar.bare .endOfInput], program, ?_, by simp,
      parseTokens_ok parsed⟩
    rw [List.take_left, List.append_assoc]
    exact List.prefix_append _ _

/-- In `[1, ]` the closing bracket is at fault, and `[1, ` begins a program. -/
theorem error_at_first_unviable_token_list :
    let tokens : Tokens :=
      [.leftBracket, .int 1, .comma, .rightBracket, .endOfInput].map Grammar.bare
    Grammar.program.run tokens = .error ⟨.expectedExpression, ⟨0, 0⟩⟩ (tokens.drop 3) ∧
      ∃ k, tokens.drop 3 = tokens.drop k ∧ k < tokens.length ∧
        RefusedAt tokens ⟨.expectedExpression, ⟨0, 0⟩⟩ k :=
  ⟨rfl, error_at_first_unviable_token rfl rfl⟩

end Primer
