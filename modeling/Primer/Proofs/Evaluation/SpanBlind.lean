import Primer.Proofs.Evaluation.Alike
import Primer.Proofs.Parsing.SpanBlind

/-!
# Spans are advisory

Programs that differ in their spans only run alike. Two evaluations correspond when their bare forms
are equal: the consoles are the same then, and so is everything that is not a span. Where only the scopes
within reach agree, the runs end alike (`endsAlike_evalProgram`). Together with the parser, which is blind
to spans as well, this says that the layout of a source does not matter beyond the tokens it makes.
-/

namespace Primer

/-! ### Values of one bare form -/

theorem optionRel_of_map_eq {α β : Type} {f : α → β} {x y : Option α} (same : x.map f = y.map f) :
    Option.Rel (fun a b => f a = f b) x y := by
  cases x with
  | none =>
    cases y with
    | none => exact .none
    | some => simp at same
  | some a =>
    cases y with
    | none => simp at same
    | some b => exact .some (by simpa using same)

theorem SameValue.of_bare {value value' : Value} (same : value.bare = value'.bare) :
    SameValue (fun a b => a.bare = b.bare) value value' := by
  cases value with
  | number x =>
    cases value' with
    | number y =>
      cases same
      exact .number x
    | _ => simp [Value.bare] at same
  | string x =>
    cases value' with
    | string y =>
      cases same
      exact .string x
    | _ => simp [Value.bare] at same
  | list elements =>
    cases value' with
    | list elements' =>
      simp only [Value.bare, Value.bareAll_eq_map, Value.list.injEq] at same
      exact .list (forall₂_iff_map_eq.mpr same)
    | _ => simp [Value.bare] at same
  | function f =>
    cases value' with
    | function f' =>
      simp only [Value.bare, Value.function.injEq] at same
      obtain ⟨name, params, -, -⟩ := Function.bare_eq_iff.mp same
      exact .function name params
    | _ => simp [Value.bare] at same
  | native x =>
    cases value' with
    | native y =>
      cases same
      exact .native x
    | _ => simp [Value.bare] at same

/-! ### Evaluations of one bare form -/

namespace Correspondence

/-- Evaluations that agree but for their spans. -/
def spanBlind (globals : ScopeId) : Correspondence Unit globals globals where
  worlds _ world world' := world.bare = world'.bare
  values _ value value' := value.bare = value'.bare
  nodes _ context context' node node' := context.bare = context'.bare ∧ node.bare = node'.bare
  signals context context' _ _ := context.bare = context'.bare
  failures error error' world world' := error.bare = error'.bare ∧ world.bare = world'.bare
  stops world world' := world.bare = world'.bare

variable {globals : ScopeId}

theorem spanBlind_lawful : (spanBlind globals).Lawful where
  values_later _ values := values
  nodes_later _ nodes := nodes
  sameNode := by
    rintro _ c c' n n' ⟨contexts, nodes⟩
    exact .of_bare nodes fun a b same => ⟨contexts, same⟩
  sameValue values := .of_bare values
  number _ _ := rfl
  string _ _ := rfl
  list := by
    intro _ vs vs' values
    simp only [spanBlind, Value.bare, Value.bareAll_eq_map, forall₂_iff_map_eq.mp values]
  lookup := by
    rintro _ c c' ident ident' w w' ⟨contexts, nodes⟩ worlds
    obtain ⟨scope, -⟩ := Context.bare_eq_iff.mp contexts
    obtain ⟨scopes, -⟩ := World.bare_eq_iff.mp worlds
    have name : ident.name = ident'.name := by
      simp only [Node.bare, Node.variable.injEq, Ident.bare, Ident.mk.injEq] at nodes
      exact nodes.1
    apply optionRel_of_map_eq
    rw [← Scopes.get?_bare, ← Scopes.get?_bare, scopes, scope, name]
  assign := by
    rintro _ c c' n n' name v v' w w' ⟨contexts, -⟩ - values worlds
    obtain ⟨scope, -⟩ := Context.bare_eq_iff.mp contexts
    obtain ⟨scopes, console⟩ := World.bare_eq_iff.mp worlds
    refine World.bare_eq_iff.mpr ⟨?_, console⟩
    have value : v.bare = v'.bare := values
    simp only [Scopes.bare_set, scope, scopes, value]
  closure := by
    rintro _ c c' name name' params params' body body' span span' ⟨contexts, nodes⟩
    obtain ⟨scope, -⟩ := Context.bare_eq_iff.mp contexts
    simp only [Node.bare, Node.function.injEq] at nodes
    obtain ⟨names, idents, bodies, -⟩ := nodes
    refine congrArg Value.function (Function.bare_eq_iff.mpr ⟨?_, ?_, bodies, scope⟩)
    · simpa [Function.comp_def, Ident.bare] using congrArg (Option.map Ident.name) names
    · simpa [Function.comp_def, Ident.bare] using congrArg (List.map Ident.name) idents
  enter := by
    rintro _ c c' callee callee' arguments arguments' span span' f f' vs vs' w w' ⟨contexts, -⟩
      functions values - worlds
    obtain ⟨-, frames⟩ := Context.bare_eq_iff.mp contexts
    obtain ⟨scopes, console⟩ := World.bare_eq_iff.mp worlds
    have size : w.scopes.size = w'.scopes.size := by
      rw [← Scopes.size_bare, scopes, Scopes.size_bare]
    simp only [spanBlind, Value.bare, Value.function.injEq] at functions
    obtain ⟨name, params, bodies, closure⟩ := Function.bare_eq_iff.mp functions
    refine ⟨(), le_rfl, World.bare_eq_iff.mpr ⟨?_, console⟩, .of_bare bodies fun a b same => ?_⟩
    · simp only [Scopes.bare_push, Scope.bare_setAll, Scope.bare_empty, Scope.map_zip_bareBinding,
        scopes, params, closure, forall₂_iff_map_eq.mp values]
    · refine ⟨Context.bare_eq_iff.mpr ⟨size, ?_⟩, same⟩
      simp only [List.map_cons, frames, Function.shownName, name, Frame.bare, Option.map_some]
  callScope := by
    rintro _ c c' callee callee' arguments arguments' span span' vs vs' w w' - values worlds
    obtain ⟨scopes, console⟩ := World.bare_eq_iff.mp worlds
    refine ⟨(), le_rfl, World.bare_eq_iff.mpr ⟨?_, console⟩⟩
    simp only [Scopes.bare_push, Native.bare_callScope, scopes, forall₂_iff_map_eq.mp values]
  converse := by
    rintro _ c c' callee callee' arguments arguments' span span' vs vs' w w' _ _ native ⟨contexts, -⟩
      values worlds
    obtain ⟨-, frames⟩ := Context.bare_eq_iff.mp contexts
    obtain ⟨scopes, console⟩ := World.bare_eq_iff.mp worlds
    -- Of the arguments only the bare forms matter, so the two calls hold one dialogue.
    have dialogue : native.execute (Native.callScope globals vs)
        = native.execute (Native.callScope globals vs') := by
      rw [← Native.execute_bare, Native.bare_callScope, forall₂_iff_map_eq.mp values,
        ← Native.bare_callScope, Native.execute_bare]
    unfold Eval.converse
    rw [dialogue, console]
    cases (native.execute (Native.callScope globals vs')).run w'.console with
    | ok v after => exact .ok le_rfl (World.bare_eq_iff.mpr ⟨scopes, rfl⟩) rfl
    | error interruption after =>
      have left : World.bare { w with console := after } = World.bare { w' with console := after } :=
        World.bare_eq_iff.mpr ⟨scopes, rfl⟩
      cases interruption with
      | failed fault =>
        refine .error (.failed ⟨?_, left⟩)
        simp [RuntimeError.bare, Frame.bare, frames]
      | awaitingInput => exact .error (.awaiting left)
  fail := by
    rintro _ c c' n n' site fault span span' w w' ⟨contexts, -⟩ - - - worlds
    obtain ⟨-, frames⟩ := Context.bare_eq_iff.mp contexts
    exact ⟨congrArg (RuntimeError.mk fault nowhere) frames, worlds⟩
  continuing nodes := nodes.1
  breaking nodes := nodes.1
  stray := by
    intro _ c c' word span span' w w' contexts worlds
    obtain ⟨-, frames⟩ := Context.bare_eq_iff.mp contexts
    exact ⟨congrArg (RuntimeError.mk (.outsideLoop word) nowhere) frames, worlds⟩
  stop worlds := worlds

/-- Corresponding results have one bare form. -/
theorem bareOutcome_eq {γ : Unit} {c c' : Context globals}
    {result result' : EStateM.Result Exit World Value}
    (outcomes : (spanBlind globals).Outcomes γ c c' (spanBlind globals).values result result') :
    bareOutcome result = bareOutcome result' := by
  cases outcomes with
  | ok _ worlds values => exact congrArg₂ EStateM.Result.ok values worlds
  | error exits =>
    cases exits with
    | returned _ worlds values => exact congrArg₂ EStateM.Result.error (congrArg Exit.returned values) worlds
    | broke _ worlds | continued _ worlds => exact congrArg₂ EStateM.Result.error rfl worlds
    | failed failures =>
      exact congrArg₂ EStateM.Result.error (congrArg Exit.failed failures.1) failures.2
    | awaiting stops | spent stops => exact congrArg₂ EStateM.Result.error rfl stops

end Correspondence

/-- Programs of one bare form, run in worlds of one bare form, end in one bare form. -/
theorem bareOutcome_evalProgram {program program' : Block} {world world' : World}
    (programs : program.bare = program'.bare) (worlds : world.bare = world'.bare) (budget : Nat)
    (scope : ScopeId) :
    bareOutcome ((evalProgram budget scope program).run world)
      = bareOutcome ((evalProgram budget scope program').run world') := by
  have same : List.Forall₂ (fun a b : Node => a.bare = b.bare) program.statements
      program'.statements := forall₂_iff_map_eq.mpr (congrArg Block.statements programs)
  let runs := Correspondence.spanBlind scope
  have statements : List.Forall₂ (runs.nodes () ⟨scope, [.program]⟩ ⟨scope, [.program]⟩)
      program.statements program'.statements :=
    same.imp fun _ _ node => ⟨rfl, node⟩
  have related : runs.Related () ⟨scope, [.program]⟩ ⟨scope, [.program]⟩ runs.values _ _ :=
    Correspondence.spanBlind_lawful.evalProgram budget statements
  exact Correspondence.bareOutcome_eq (related () le_rfl world world' worlds)

/-- Spans are advisory only. Tokens that agree but for their spans are parsed to programs, or to errors,
that agree but for theirs. Programs that do, run in worlds that do, come to the same end but for spans,
within every budget: to the same value or failure, the same scopes and the very same console, or to
none. The scopes out of reach may differ, and those within reach may stand elsewhere. So sources that are
laid out differently but have the same tokens are parsed and run alike. -/
theorem spans_are_advisory :
    (∀ tokens tokens' : Tokens, tokens.map Lexeme.token = tokens'.map Lexeme.token →
      bareParse (parseTokens tokens) = bareParse (parseTokens tokens')) ∧
    (∀ (program program' : Block) (world world' : World), program.bare = program'.bare →
      world.bare = world'.bare → ∀ budget scope,
        bareOutcome ((evalProgram budget scope program).run world)
          = bareOutcome ((evalProgram budget scope program').run world')) ∧
    (∀ (program program' : Block) (world world' : World) (pairs : Pairing) (scope scope' : ScopeId),
      program.bare = program'.bare → world.Alike pairs world' → pairs scope scope' → ∀ budget,
        EndsAlike pairs ((evalProgram budget scope program).run world)
          ((evalProgram budget scope' program').run world')) ∧
    ∀ (source source' : String) (tokens tokens' : Tokens), lex source = .ok tokens →
      lex source' = .ok tokens' → tokens.map Lexeme.token = tokens'.map Lexeme.token →
      (∃ error error', parse source = .error error ∧ parse source' = .error error' ∧
        error.bare = error'.bare) ∨
      ∃ program program', parse source = .ok program ∧ parse source' = .ok program' ∧
        program.bare = program'.bare ∧ ∀ world world' : World, world.bare = world'.bare →
          ∀ budget scope, bareOutcome ((evalProgram budget scope program).run world)
            = bareOutcome ((evalProgram budget scope program').run world') := by
  refine ⟨fun _ _ => bareParse_parseTokens, fun _ _ _ _ => bareOutcome_evalProgram,
    fun _ _ _ _ _ _ _ => endsAlike_evalProgram, ?_⟩
  intro source source' tokens tokens' lexed lexed' same
  have alike := bareParse_parseTokens same
  rw [parse_of_lex lexed, parse_of_lex lexed']
  cases parsed : parseTokens tokens with
  | error error =>
    cases parsed' : parseTokens tokens' with
    | error error' =>
      simp only [parsed, parsed', bareParse, Except.error.injEq] at alike
      exact .inl ⟨error, error', rfl, rfl, alike⟩
    | ok => simp [parsed, parsed', bareParse] at alike
  | ok program =>
    cases parsed' : parseTokens tokens' with
    | error => simp [parsed, parsed', bareParse] at alike
    | ok program' =>
      simp only [parsed, parsed', bareParse, Except.ok.injEq] at alike
      exact .inr ⟨program, program', rfl, rfl, alike,
        fun _ _ worlds => bareOutcome_evalProgram alike worlds⟩

/-- Two layouts of a program that calls a function of the scope, whose body was written elsewhere. The
scope may also stand behind another one. -/
theorem spans_are_advisory_layout :
    let source := "f ( ) ; f"
    let source' := "f() # twice\n\n\tf"
    let tokens : Tokens := [⟨.ident "f", ⟨0, 1⟩⟩, ⟨.leftParen, ⟨2, 3⟩⟩, ⟨.rightParen, ⟨4, 5⟩⟩,
      ⟨.newline, ⟨6, 7⟩⟩, ⟨.ident "f", ⟨8, 9⟩⟩, ⟨.endOfInput, ⟨9, 9⟩⟩]
    let tokens' : Tokens := [⟨.ident "f", ⟨0, 1⟩⟩, ⟨.leftParen, ⟨1, 2⟩⟩, ⟨.rightParen, ⟨2, 3⟩⟩,
      ⟨.newline, ⟨11, 13⟩⟩, ⟨.ident "f", ⟨14, 15⟩⟩, ⟨.endOfInput, ⟨15, 15⟩⟩]
    let program : Block := ⟨[.call (.variable ⟨"f", ⟨0, 1⟩⟩) [] ⟨0, 1⟩, .variable ⟨"f", ⟨8, 9⟩⟩], ⟨0, 9⟩⟩
    let program' : Block :=
      ⟨[.call (.variable ⟨"f", ⟨0, 1⟩⟩) [] ⟨0, 1⟩, .variable ⟨"f", ⟨14, 15⟩⟩], ⟨0, 15⟩⟩
    let world (span : Span) : World :=
      ⟨#[⟨[("f", .function ⟨some "f", [], .inline (.number (.int 1) span), 0⟩)], none⟩],
        .ofInput [] .none true⟩
    let behind (span : Span) : World :=
      ⟨#[⟨[("g", .null)], none⟩,
          ⟨[("f", .function ⟨some "f", [], .inline (.number (.int 1) span), 1⟩)], none⟩],
        .ofInput [] .none true⟩
    let pairs : Pairing := fun a b => a = 0 ∧ b = 1
    (tokens.map Lexeme.token = tokens'.map Lexeme.token ∧
      bareParse (parseTokens tokens) = bareParse (parseTokens tokens')) ∧
    (program.bare = program'.bare ∧ (world ⟨3, 4⟩).bare = (world ⟨5, 6⟩).bare ∧ ∀ budget scope,
      bareOutcome ((evalProgram budget scope program).run (world ⟨3, 4⟩))
        = bareOutcome ((evalProgram budget scope program').run (world ⟨5, 6⟩))) ∧
    ((world ⟨3, 4⟩).Alike pairs (behind ⟨5, 6⟩) ∧ ∀ budget,
      EndsAlike pairs ((evalProgram budget 0 program).run (world ⟨3, 4⟩))
        ((evalProgram budget 1 program').run (behind ⟨5, 6⟩))) ∧
    lex source = .ok tokens ∧ lex source' = .ok tokens' ∧
      ((∃ error error', parse source = .error error ∧ parse source' = .error error' ∧
        error.bare = error'.bare) ∨
      ∃ program program', parse source = .ok program ∧ parse source' = .ok program' ∧
        program.bare = program'.bare ∧ ∀ world world' : World, world.bare = world'.bare →
          ∀ budget scope, bareOutcome ((evalProgram budget scope program).run world)
            = bareOutcome ((evalProgram budget scope program').run world')) := by
  intro source source' tokens tokens' program program' world behind pairs
  have same : tokens.map Lexeme.token = tokens'.map Lexeme.token := rfl
  have lexed : lex source = .ok tokens := by decide +kernel
  have lexed' : lex source' = .ok tokens' := by decide +kernel
  have programs : program.bare = program'.bare := rfl
  have worlds : (world ⟨3, 4⟩).bare = (world ⟨5, 6⟩).bare := by
    simp [world, World.bare, Scopes.bare, Scope.bare, Scope.bareBinding, Value.bare, Function.bare,
      Body.bare, Node.bare]
  have alike : (world ⟨3, 4⟩).Alike pairs (behind ⟨5, 6⟩) := by
    refine ⟨rfl, ?_, ?_⟩
    · rintro a b ⟨rfl, rfl⟩
      have functions : Value.Alike pairs
          (.function ⟨some "f", [], .inline (.number (.int 1) ⟨3, 4⟩), 0⟩)
          (.function ⟨some "f", [], .inline (.number (.int 1) ⟨5, 6⟩), 1⟩) :=
        .function rfl rfl rfl ⟨rfl, rfl⟩
      have outermost (bound : ScopeId) : ∀ parent ∈ (none : Option ScopeId), parent < bound := by
        simp
      exact ⟨_, _, rfl, rfl, ⟨.cons ⟨rfl, functions⟩ .nil, .none⟩, outermost 0, outermost 1⟩
    · rintro a b a' b' ⟨rfl, rfl⟩ ⟨rfl, rfl⟩
      exact ⟨fun _ => rfl, fun _ => rfl⟩
  obtain ⟨parsing, running, pairing, layout⟩ := spans_are_advisory
  exact ⟨⟨same, parsing tokens tokens' same⟩,
    ⟨programs, worlds, running program program' _ _ programs worlds⟩,
    ⟨alike, pairing program program' _ _ pairs 0 1 programs alike ⟨rfl, rfl⟩⟩, lexed, lexed',
    layout source source' tokens tokens' lexed lexed' same⟩

end Primer
