import Primer.Proofs.Evaluation.Locations
import Primer.Proofs.Parsing.SourceSpans

/-!
# Where errors point

Whatever a run fails with, its spans lie inside the source: the place of text that is no token, the
token at which a program stops making sense, the node that could not be evaluated, and the calls it
was evaluated in. Reports bring every span inside the source before they show it, and change none of
these.

The last two come from nodes of the program that is run: no function is bound when a session starts,
so every function that is called stands in the source.
-/

namespace Primer

def ParseFault.lexical? : ParseFault → Option LexicalError
  | .lexical error => some error
  | _ => none

/-- All the places that a failure names, in the source and under the calls that led there. -/
def Failure.spans : Failure → List Span
  | .parse _ _ error => error.span :: (error.fault.lexical?.map LexicalError.span).toList
  | .runtime _ _ error => error.span :: error.frames.filterMap Frame.entry
  | .extension _ | .file _ => []

/-! ### Text that is no program -/

namespace Simulation

/-- A parser beside itself, which finds no fault with the text of a token. -/
def syntactic : Simulation :=
  { Grammar.reflexive with
    errors := fun error error' _ _ => error = error' ∧ error.fault.lexical? = none }

theorem syntactic_tokens {left left' : Tokens} : syntactic.tokens left left' ↔ left = left' :=
  iff_of_eq (congrFun₂ List.forall₂_eq_eq_eq left left')

theorem syntactic_lawful : syntactic.Lawful :=
  { Grammar.reflexive_lawful with
    unexpected := fun _ same => by cases syntactic_tokens.mp same; exact ⟨rfl, rfl⟩
    expectedIdent := fun same => by cases syntactic_tokens.mp same; exact ⟨rfl, rfl⟩
    expectedExpression := fun same => by cases syntactic_tokens.mp same; exact ⟨rfl, rfl⟩ }

end Simulation

theorem Grammar.lexical?_of_program_error {tokens left : Tokens} {error : ParseError}
    (failed : program tokens = .error error left) : error.fault.lexical? = none := by
  have outcomes := Simulation.syntactic_lawful.program tokens tokens
    (Simulation.syntactic_tokens.mpr rfl) (Nat.le_refl _)
  rw [failed] at outcomes
  cases outcomes with
  | error _ _ errors => exact errors.2

variable {source : String}

/-- Text that is no token has one place, the one that its error is reported at. -/
theorem span_of_lexical {error : ParseError} {fault : LexicalError}
    (failed : parse source = .error error) (lexical : error.fault.lexical? = some fault) :
    fault.span = error.span := by
  cases lexed : lex source with
  | error found =>
    rw [parse, lexed] at failed
    cases failed
    cases lexical
    rfl
  | ok tokens =>
    rw [parse_of_lex lexed, parseTokens, EStateM.run] at failed
    cases ran : Grammar.program tokens with
    | ok block left => simp [ran] at failed
    | error found left =>
      rw [ran] at failed
      cases failed
      rw [Grammar.lexical?_of_program_error ran] at lexical
      cases lexical

/-! ### Programs that fail -/

/-- A session starts without functions, so a run that fails in it is evaluating its own program. -/
theorem locatedIn_of_fresh {budget : Nat} {path path' source' : String} {console : Console}
    {error : RuntimeError} {after : World}
    (failed : run budget path source 0 (.ofConsole console)
      = (.failure (.runtime path' source' error), after)) :
    error.LocatedIn (StandsIn [source]) := by
  let submission : Submission := ⟨budget, path, source, console⟩
  have functionless : ∀ scope, (World.ofConsole console).scopes[0]? = some scope →
      scope.Holds (Value.Every fun _ => False) := by
    rintro scope ⟨⟩
    exact Scope.holds_global .number .native
  have stocked := stocked_of_functionless (World.sound_ofConsole console) functionless
    (StandsIn [source])
  have known : submission.source ∈ [source] := List.mem_singleton_self source
  exact (stocked.run (.inl rfl) known).2 _ _ error after failed

theorem Located.inside {span : Span} (located : Located (StandsIn [source]) span) :
    span.Inside source := by
  obtain ⟨node, ⟨text, known, program, parsed, contains⟩, rfl⟩ := located
  obtain rfl := List.mem_singleton.mp known
  exact contains.inside parsed

/-- A run fails because its source is no program, or because the program fails. -/
theorem failure_cases {budget : Nat} {path : String} {scope : ScopeId} {world after : World}
    {failure : Failure} (failed : run budget path source scope world = (.failure failure, after)) :
    (∃ error, parse source = .error error ∧ failure = .parse path source error) ∨
      ∃ error, failure = .runtime path source error := by
  cases parsed : parse source with
  | error error =>
    simp only [run, parsed, Prod.mk.injEq, Finish.failure.injEq] at failed
    exact .inl ⟨error, rfl, failed.1.symm⟩
  | ok program =>
    simp only [run, parsed, runProgram] at failed
    split at failed
    next => cases failed
    next error _ _ =>
      simp only [Prod.mk.injEq, Finish.failure.injEq] at failed
      exact .inr ⟨error, failed.1.symm⟩
    next => cases failed
    next => cases failed

/-- However a run in a fresh session fails, its error names places inside the source, and reports
show them as they are. -/
theorem failure_spans_inside (budget : Nat) (path source : String) (console : Console)
    {failure : Failure} {after : World}
    (failed : run budget path source 0 (.ofConsole console) = (.failure failure, after)) :
    ((∃ error, failure = .parse path source error) ∨
        ∃ error, failure = .runtime path source error) ∧
      ∀ span ∈ failure.spans, span.Inside source ∧ span.shown source = span := by
  have inside : ∀ span ∈ failure.spans, span.Inside source := by
    rcases failure_cases failed with ⟨error, unparsed, rfl⟩ | ⟨error, rfl⟩
    · refine List.forall_mem_cons.mpr ⟨inside_of_parse unparsed, fun span member => ?_⟩
      obtain ⟨fault, lexical, rfl⟩ := Option.map_eq_some_iff.mp (Option.mem_toList.mp member)
      rw [span_of_lexical unparsed lexical]
      exact inside_of_parse unparsed
    · have located := locatedIn_of_fresh failed
      refine List.forall_mem_cons.mpr ⟨located.span.inside, fun span member => ?_⟩
      obtain ⟨frame, called, entry⟩ := List.mem_filterMap.mp member
      exact (located.entries frame called span entry).inside
  refine ⟨?_, fun span member => ⟨inside span member, (inside span member).shown⟩⟩
  exact (failure_cases failed).imp_left fun ⟨error, _, same⟩ => ⟨error, same⟩

/-- A division in a function that is called from the line below, behind a letter of two bytes. -/
theorem failure_spans_inside_called :
    let source := "fun f() -> \"é\" / 0\nf()"
    let error : RuntimeError :=
      ⟨.operation .illegal, ⟨11, 19⟩, [⟨"f", some ⟨20, 21⟩⟩, .program]⟩
    ∃ after, run 9 "a.lrl" source 0 (.ofConsole (.ofInput [] .none true))
        = (.failure (.runtime "a.lrl" source error), after) ∧
      ∀ span ∈ [⟨11, 19⟩, ⟨20, 21⟩], Span.Inside source span ∧ span.shown source = span := by
  intro source error
  have lexed : lex source = .ok [⟨.keyword .funWord, ⟨0, 3⟩⟩, ⟨.ident "f", ⟨4, 5⟩⟩,
      ⟨.leftParen, ⟨5, 6⟩⟩, ⟨.rightParen, ⟨6, 7⟩⟩, ⟨.arrow, ⟨8, 10⟩⟩, ⟨.string "é", ⟨11, 15⟩⟩,
      ⟨.divide, ⟨16, 17⟩⟩, ⟨.int 0, ⟨18, 19⟩⟩, ⟨.newline, ⟨19, 20⟩⟩, ⟨.ident "f", ⟨20, 21⟩⟩,
      ⟨.leftParen, ⟨21, 22⟩⟩, ⟨.rightParen, ⟨22, 23⟩⟩, ⟨.endOfInput, ⟨23, 23⟩⟩] := by
    decide +kernel
  have parsed : parse source = .ok ⟨[.function (some ⟨"f", ⟨4, 5⟩⟩) []
      (.inline (.binary (.string "é" ⟨11, 15⟩) .divide (.number (.int 0) ⟨18, 19⟩) ⟨11, 19⟩))
      ⟨4, 19⟩, .call (.variable ⟨"f", ⟨20, 21⟩⟩) [] ⟨20, 21⟩], ⟨4, 21⟩⟩ := by
    rw [parse, lexed]
    rfl
  have failed : ∃ after, run 9 "a.lrl" source 0 (.ofConsole (.ofInput [] .none true))
      = (.failure (.runtime "a.lrl" source error), after) := by
    simp only [Primer.run, parsed]
    exact ⟨_, rfl⟩
  obtain ⟨after, failed⟩ := failed
  exact ⟨after, failed, (failure_spans_inside 9 "a.lrl" source _ failed).2⟩

end Primer
