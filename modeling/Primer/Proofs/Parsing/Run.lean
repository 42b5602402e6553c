import Mathlib
import Primer.Program.Grammar

/-!
# Running the primitive parsers

What each primitive parser does to a list of tokens, as equations to rewrite with, and how many tokens
it leaves.
-/

namespace Primer

namespace Tokens

theorem step_cons {lexeme : Lexeme} (more : lexeme.token ≠ .endOfInput) (rest : Tokens) :
    step (lexeme :: rest) = rest := by
  rw [step, if_neg more]

theorem length_step {tokens : Tokens} (more : tokens.current ≠ .endOfInput) :
    tokens.step.length + 1 = tokens.length := by
  cases tokens with
  | nil => exact absurd rfl more
  | cons lexeme rest =>
    rw [step_cons more]
    rfl

theorem length_step_le (tokens : Tokens) : tokens.step.length ≤ tokens.length := by
  cases tokens with
  | nil => exact Nat.le_refl _
  | cons lexeme rest =>
    simp only [step]
    split <;> simp

theorem peek_cons (lexeme : Lexeme) (left : Tokens) : peek (lexeme :: left) = left.current := by
  cases left <;> rfl

theorem skipNewlines_append {newlines rest : Tokens}
    (all : ∀ lexeme ∈ newlines, lexeme.token = .newline) (stops : rest.current ≠ .newline) :
    skipNewlines (newlines ++ rest) = rest := by
  induction newlines with
  | nil =>
    cases rest with
    | nil => rfl
    | cons lexeme rest =>
      have other : lexeme.token ≠ .newline := stops
      rw [List.nil_append, skipNewlines, if_neg other]
  | cons lexeme newlines ih =>
    rw [List.cons_append, skipNewlines, if_pos (all lexeme List.mem_cons_self)]
    exact ih fun other member => all other (List.mem_cons_of_mem _ member)

theorem skipNewlines_of_ne {tokens : Tokens} (stops : tokens.current ≠ .newline) :
    tokens.skipNewlines = tokens :=
  skipNewlines_append (fun _ member => absurd member (List.not_mem_nil)) stops

theorem exists_newlines (tokens : Tokens) : ∃ newlines rest : Tokens, tokens = newlines ++ rest ∧
    (∀ lexeme ∈ newlines, lexeme.token = .newline) ∧ rest.current ≠ .newline := by
  induction tokens with
  | nil => exact ⟨[], [], rfl, nofun, nofun⟩
  | cons lexeme tokens ih =>
    by_cases newline : lexeme.token = .newline
    · obtain ⟨newlines, rest, rfl, all, stops⟩ := ih
      exact ⟨lexeme :: newlines, rest, rfl, List.forall_mem_cons.mpr ⟨newline, all⟩, stops⟩
    · exact ⟨[], lexeme :: tokens, rfl, nofun, newline⟩

theorem length_skipNewlines_le (tokens : Tokens) :
    tokens.skipNewlines.length ≤ tokens.length := by
  obtain ⟨newlines, rest, rfl, all, stops⟩ := tokens.exists_newlines
  rw [skipNewlines_append all stops, List.length_append]
  exact Nat.le_add_left _ _

end Tokens

/-- No token but a float agrees with another token. -/
theorem Token.agrees_iff {found wanted : Token} (exact : ∀ value, wanted ≠ .float value) :
    found.agrees wanted = true ↔ found = wanted := by
  cases wanted with
  | float value => exact absurd rfl (exact value)
  | _ => cases found <;> simp [Token.agrees]

namespace Parser

variable {α β : Type} (tokens : Tokens)

theorem run_pure (a : α) : (pure a : Parser α) tokens = .ok a tokens := rfl

theorem run_unexpected (expected : List String) :
    (unexpected expected : Parser α) tokens = .error (tokens.unexpected expected) tokens := rfl

theorem run_current (f : Token → Parser β) :
    (current >>= f) tokens = f tokens.current tokens := rfl

theorem run_peek (f : Token → Parser β) : (peek >>= f) tokens = f tokens.peek tokens := rfl

theorem run_span (f : Span → Parser β) : (span >>= f) tokens = f tokens.span tokens := rfl

theorem run_atBlockStart (f : Bool → Parser β) :
    (atBlockStart >>= f) tokens = f tokens.atBlockStart tokens := rfl

theorem run_get (f : Tokens → Parser β) : (get >>= f) tokens = f tokens tokens := rfl

theorem run_step_cons {lexeme : Lexeme} (more : lexeme.token ≠ .endOfInput) (rest : Tokens) :
    step (lexeme :: rest) = .ok () rest :=
  congrArg (EStateM.Result.ok ()) (Tokens.step_cons more rest)

theorem run_skipNewlines (f : Unit → Parser β) :
    (skipNewlines >>= f) tokens = f () tokens.skipNewlines := rfl

theorem run_bind (x : Parser α) (f : α → Parser β) :
    (x >>= f) tokens =
      match x tokens with
      | .ok a left => f a left
      | .error error left => .error error left := by
  simp only [bind, EStateM.bind]
  cases x tokens <;> rfl

theorem run_bind_ok {x : Parser α} {f : α → Parser β} {tokens left : Tokens} {a : α}
    (ran : x tokens = .ok a left) : (x >>= f) tokens = f a left := by
  rw [run_bind, ran]

theorem run_bind_eq_ok {x : Parser α} {f : α → Parser β} {tokens last : Tokens} {b : β} :
    (x >>= f) tokens = .ok b last ↔ ∃ a left, x tokens = .ok a left ∧ f a left = .ok b last := by
  constructor
  · intro ran
    rw [run_bind] at ran
    cases first : x tokens with
    | ok a left => exact ⟨a, left, rfl, by rwa [first] at ran⟩
    | error error left =>
      rw [first] at ran
      cases ran
  · rintro ⟨a, left, first, second⟩
    rw [run_bind_ok first, second]

/-- A token that is there is passed. -/
theorem run_expect {tokens : Tokens} {token : Token} (here : tokens.current.agrees token = true) :
    expect token tokens = .ok tokens.span tokens.step := by
  simp only [expect, run_get, here, if_true]
  rfl

theorem run_expect_cons {lexeme : Lexeme} {token : Token} (here : lexeme.token = token)
    (more : token ≠ .endOfInput) (exact : ∀ value, token ≠ .float value) (rest : Tokens) :
    expect token (lexeme :: rest) = .ok lexeme.span rest := by
  have found : (Tokens.current (lexeme :: rest)).agrees token = true :=
    (Token.agrees_iff exact).mpr here
  rw [run_expect found, Tokens.step_cons (here ▸ more)]
  rfl

theorem run_pass {lexeme : Lexeme} {token : Token} (here : lexeme.token = token)
    (more : token ≠ .endOfInput) (exact : ∀ value, token ≠ .float value) (rest : Tokens)
    (f : Unit → Parser β) : (discard (expect token) >>= f) (lexeme :: rest) = f () rest := by
  have passed : discard (expect token) (lexeme :: rest) = .ok () rest := by
    -- Discarding is mapping to the unit value.
    show ((fun _ => ()) <$> expect token : Parser Unit) (lexeme :: rest) = _
    rw [map_eq_pure_bind, run_bind, run_expect_cons here more exact]
    rfl
  rw [run_bind, passed]

/-- A token that is not there is asked for. -/
theorem run_expect_error {tokens : Tokens} {token : Token}
    (missing : tokens.current.agrees token = false) :
    expect token tokens = .error (tokens.unexpected ["`" ++ token.literal ++ "`"]) tokens := by
  simp only [expect, run_get, missing]
  rfl

theorem run_demand_cons {lexeme : Lexeme} {token : Token} {expected : List String}
    (here : lexeme.token = token) (more : token ≠ .endOfInput) (rest : Tokens) :
    demand token expected (lexeme :: rest) = .ok () rest := by
  have found : Tokens.current (lexeme :: rest) = token := here
  rw [demand, run_current, found, if_pos rfl, run_step_cons (here ▸ more)]

theorem run_skip_cons {lexeme : Lexeme} {token : Token} (here : lexeme.token = token)
    (more : token ≠ .endOfInput) (rest : Tokens) : skip token (lexeme :: rest) = .ok () rest := by
  have found : Tokens.current (lexeme :: rest) = token := here
  rw [skip, run_current, found, if_pos rfl, run_step_cons (here ▸ more)]

theorem run_skip_of_ne {tokens : Tokens} {token : Token} (different : tokens.current ≠ token) :
    skip token tokens = .ok () tokens := by
  rw [skip, run_current, if_neg different]
  rfl

theorem run_ident {tokens : Tokens} {name : String} (here : tokens.current = .ident name) :
    ident tokens = .ok ⟨name, tokens.span⟩ tokens.step := by
  simp only [ident, run_get, here]
  rfl

theorem run_ident_cons {lexeme : Lexeme} {name : String} (here : lexeme.token = .ident name)
    (rest : Tokens) : ident (lexeme :: rest) = .ok ⟨name, lexeme.span⟩ rest := by
  have found : Tokens.current (lexeme :: rest) = .ident name := here
  rw [run_ident found, Tokens.step_cons (by rw [here]; exact nofun)]
  rfl

theorem run_ident_error {tokens : Tokens} (missing : ∀ name, tokens.current ≠ .ident name) :
    ident tokens = .error ⟨.expectedIdent, tokens.span⟩ tokens := by
  simp only [ident, run_get]
  rfl

end Parser

theorem parse_of_lex {source : String} {tokens : Tokens} (lexed : lex source = .ok tokens) :
    parse source = parseTokens tokens := by
  simp [parse, lexed]

theorem parse_eq_ok_iff {source : String} {program : Block} : parse source = .ok program ↔
    ∃ tokens, lex source = .ok tokens ∧ parseTokens tokens = .ok program := by
  constructor
  · intro parsed
    cases lexed : lex source with
    | error => simp [parse, lexed] at parsed
    | ok tokens => exact ⟨tokens, rfl, parse_of_lex lexed ▸ parsed⟩
  · rintro ⟨tokens, lexed, parsed⟩
    rw [parse_of_lex lexed, parsed]

theorem parseTokens_eq_ok_iff {tokens : Tokens} {program : Block} :
    parseTokens tokens = .ok program ↔ ∃ left, Grammar.program tokens = .ok program left := by
  rw [parseTokens, EStateM.run]
  cases ran : Grammar.program tokens with
  | error => simp
  | ok block left => simp

end Primer
