import Primer.Proofs.Evaluation.Invariant
import Primer.Proofs.Machine.Bindings
import Primer.Proofs.Parsing.Diagonal
import Primer.Session.Run

/-!
# Tracebacks

A failure carries the calls under way and the span of the code at fault. `Traceback` says what the
calls have to look like: the outermost frame is that of the program; each other frame carries the name
of a function of the program, and it was entered by a call that stands in the code of the frame before.

Two facts carry the proof. Every function value that a run can come by was made from a function of the
program (`Value.Defined`), so a call runs code of the program. And an operation spans its operands, so
a failure reported from the one to the other is reported at the operation.
-/

namespace Primer

/-- The calls under way, the innermost first, with the code that the innermost one runs. -/
inductive Traceback (program : Block) : List Frame → List Node → Prop
  | program : Traceback program [.program] program.statements
  | call {frames : List Frame} {code : List Node} {callee : Node} {arguments : List Node}
      {name : Option Ident} {params : List Ident} {body : Body} {span span' : Span}
      (outer : Traceback program frames code)
      (site : OccursInCode (.call callee arguments span) code)
      (definition : program.Contains (.function name params body span')) :
      Traceback program (⟨(name.map Ident.name).getD "<anonymous>", some span⟩ :: frames)
        body.statements

/-- A failure is reported at a node of the code that was run, or, in a built-in function, at the call
of it. -/
inductive RuntimeError.Traced (program : Block) : RuntimeError → Prop
  | own {fault : RuntimeFault} {frames : List Frame} {code : List Node} {node : Node}
      (traceback : Traceback program frames code) (place : OccursInCode node code) :
      Traced program ⟨fault, node.span, frames⟩
  | native {fault : RuntimeFault} {frames : List Frame} {code : List Node} {callee : Node}
      {arguments : List Node} {span : Span} (native : Native)
      (traceback : Traceback program frames code)
      (site : OccursInCode (.call callee arguments span) code) :
      Traced program ⟨fault, span, ⟨native.name, some span⟩ :: frames⟩

/-- Every function inside the value was made from a function of the program. -/
inductive Value.Defined (program : Block) : Value → Prop
  | number (x : Number) : Defined program (.number x)
  | string (x : String) : Defined program (.string x)
  | native (x : Native) : Defined program (.native x)
  | list {elements : List Value} (each : ∀ element ∈ elements, Defined program element) :
      Defined program (.list elements)
  | function {name : Option Ident} {params : List Ident} {body : Body} {span : Span}
      (definition : program.Contains (.function name params body span)) (closure : ScopeId) :
      Defined program (.function ⟨name.map Ident.name, params.map Ident.name, body, closure⟩)

section Occurrence

variable {program : Block} {node inner : Node} {code : List Node}

theorem OccursInCode.child (occurs : OccursInCode node code) (member : inner ∈ node.children) :
    OccursInCode inner code := by
  obtain ⟨statement, stands, path⟩ := occurs
  exact ⟨statement, stands, .head member path⟩

theorem occursInCode_of_mem (member : node ∈ code) : OccursInCode node code :=
  ⟨node, member, .refl⟩

theorem Block.Contains.part (contains : program.Contains node) (member : inner ∈ node.parts) :
    program.Contains inner := by
  obtain ⟨statement, stands, path⟩ := contains
  exact ⟨statement, stands, .head member path⟩

theorem Block.Contains.occurring (statements : ∀ statement ∈ code, program.Contains statement)
    (occurs : OccursInCode node code) : program.Contains node := by
  obtain ⟨statement, stands, path⟩ := occurs
  obtain ⟨top, member, above⟩ := statements statement stands
  exact ⟨top, member, path.partOf.trans above⟩

/-- The code that calls run is code of the program. -/
theorem Traceback.contains {frames : List Frame} (traceback : Traceback program frames code)
    (occurs : OccursInCode node code) : program.Contains node := by
  refine .occurring (fun statement member => ?_) occurs
  cases traceback with
  | program => exact ⟨statement, member, .refl⟩
  | call _ _ definition => exact definition.part member

end Occurrence

/-- What a run of the program keeps. -/
def tracing (globals : ScopeId) (program : Block) : Invariant Unit globals where
  world _ world := world.scopes.Hold (Value.Defined program)
  value _ value := value.Defined program
  node _ context node := ∃ code, Traceback program context.frames code ∧ OccursInCode node code
  signal context span :=
    ∃ code node, Traceback program context.frames code ∧ OccursInCode node code ∧ node.span = span
  failure error _ := error.Traced program
  stopped _ := True

/-- A failure of a node is reported at the node or at a child. -/
theorem Node.Raises.span_eq {node : Node} {site : Site} {fault : RuntimeFault} {span : Span}
    (raises : node.Raises site fault span) (joined : node.Joined) :
    span = node.span ∨ ∃ child ∈ node.children, span = child.span := by
  cases raises with
  | undefined | unary | tooManyArgs | tooFewArgs | notCallable => exact .inl rfl
  | binary left right operator span fault =>
    cases fault with
    -- Operands that do not fit the operator are reported together: that is the whole operation.
    | illegal => exact .inl joined.symm
    | _ => exact .inr ⟨right, by simp [Node.children], rfl⟩
  | first counter first => exact .inr ⟨first, by simp [Node.children], rfl⟩
  | limit counter first limit => exact .inr ⟨limit, by simp [Node.children], rfl⟩
  | step counter first limit step => exact .inr ⟨step, by simp [Node.children], rfl⟩
  | count count => exact .inr ⟨count, by simp [Node.children], rfl⟩

theorem tracing_lawful {program : Block} {globals : ScopeId}
    (joined : ∀ node, program.Contains node → node.Joined) :
    (tracing globals program).Lawful where
  value_later _ value := value
  node_later _ node := node
  child := by
    rintro γ context node child ⟨code, traceback, occurs⟩ member
    exact ⟨code, traceback, occurs.child member⟩
  number _ x := .number x
  string _ x := .string x
  list := by
    intro γ values
    refine ⟨fun defined => ?_, .list⟩
    cases defined with
    | list each => exact each
  lookup _ world found := world.get? found
  assign _ _ value world := world.set _ _ value
  closure := by
    rintro γ context name params body span ⟨code, traceback, occurs⟩
    exact .function (traceback.contains occurs) context.scope
  enter := by
    rintro γ context callee arguments span f values world ⟨code, traceback, site⟩ defined each _ hold
    -- The function comes from the program, so the call runs code of the program.
    cases defined with
    | function definition closure =>
      refine ⟨(), le_rfl, ?_, fun node member => ?_⟩
      · refine hold.push ((Scope.holds_empty _).setAll fun binding member => ?_)
        exact each _ (List.of_mem_zip member).2
      · exact ⟨_, .call traceback site definition, occursInCode_of_mem member⟩
  callScope _ each hold := ⟨(), le_rfl, hold.push (Scope.holds_callScope _ each)⟩
  answer native _ _ world answered :=
    ⟨world, Native.good_of_execute .number .string answered⟩
  breakdown := by
    rintro γ context callee arguments span values world fault console native
      ⟨code, traceback, site⟩ _ _ _
    exact .native native traceback site
  await _ _ _ _ _ := trivial
  fail := by
    rintro γ context node site fault span world ⟨code, traceback, occurs⟩ raises _ _
    rcases raises.span_eq (joined node (traceback.contains occurs)) with rfl | ⟨child, member, rfl⟩
    · exact .own traceback occurs
    · exact .own traceback (occurs.child member)
  continuing := by
    rintro γ context span ⟨code, traceback, occurs⟩
    exact ⟨code, .continuing span, traceback, occurs, rfl⟩
  breaking := by
    rintro γ context span ⟨code, traceback, occurs⟩
    exact ⟨code, .breaking span, traceback, occurs, rfl⟩
  stray := by
    rintro γ context word span world ⟨code, node, traceback, occurs, rfl⟩ _
    exact .own traceback occurs
  stop _ := trivial

/-- Wherever an operation stands in a parsed program, it spans its operands. -/
theorem joined_of_parse {source : String} {program : Block} (parsed : parse source = .ok program) :
    ∀ node, program.Contains node → node.Joined := by
  obtain ⟨tokens, _, parsed⟩ := parse_eq_ok_iff.mp parsed
  obtain ⟨left, ran⟩ := parseTokens_eq_ok_iff.mp parsed
  -- The grammar joins each operation it builds; further down it was joined before.
  have hereditary : Hereditary fun node => ∀ part : Node, part.PartOf node → part.Joined := by
    intro node joined parts part path
    rcases Relation.ReflTransGen.cases_tail path with rfl | ⟨whole, below, member⟩
    · exact joined
    · exact parts whole member part below
  rintro node ⟨statement, member, path⟩
  exact Grammar.good_of_program hereditary ran statement member node path

/-- A program that is run in a fresh scope and fails has a traceback through its own code. -/
theorem traceback_through_code {source : String} {program : Block}
    (parsed : parse source = .ok program) {budget : Nat} {console : Console} {error : RuntimeError}
    {world : World}
    (failed : (evalProgram budget 0 program).run (.ofConsole console) = .error (.failed error) world) :
    error.Traced program := by
  have fresh : (World.ofConsole console).scopes.Hold (Value.Defined program) := by
    intro scope member
    rw [List.mem_singleton.mp (Array.mem_toList_iff.mpr member)]
    exact Scope.holds_global .number .native
  have top : ∀ statement ∈ program.statements,
      (tracing 0 program).node () ⟨0, [.program]⟩ statement :=
    fun statement member => ⟨_, .program, occursInCode_of_mem member⟩
  have outcome : (tracing 0 program).Outcome () ⟨0, [.program]⟩
      (evalProgram budget 0 program (.ofConsole console)) :=
    (tracing_lawful (joined_of_parse parsed)).evalProgram budget top fresh
  rw [EStateM.run] at failed
  rw [failed] at outcome
  exact outcome

/-- An operation fails in a function that another function calls. -/
theorem traceback_through_code_chain :
    let source := "fun f(x) -> x + \"a\"; fun g() -> f(1); g()"
    let program : Block :=
      ⟨[.function (some ⟨"f", ⟨4, 5⟩⟩) [⟨"x", ⟨6, 7⟩⟩]
          (.inline (.binary (.variable ⟨"x", ⟨12, 13⟩⟩) .plus (.string "a" ⟨16, 19⟩) ⟨12, 19⟩)) ⟨4, 19⟩,
        .function (some ⟨"g", ⟨25, 26⟩⟩) []
          (.inline (.call (.variable ⟨"f", ⟨32, 33⟩⟩) [.number (.int 1) ⟨34, 35⟩] ⟨32, 35⟩)) ⟨25, 35⟩,
        .call (.variable ⟨"g", ⟨38, 39⟩⟩) [] ⟨38, 39⟩], ⟨4, 39⟩⟩
    let error : RuntimeError := ⟨.operation .illegal, ⟨12, 19⟩,
      [⟨"f", some ⟨32, 35⟩⟩, ⟨"g", some ⟨38, 39⟩⟩, .program]⟩
    parse source = .ok program ∧ ∃ world,
      (evalProgram 9 0 program).run (.ofConsole (.ofInput [] .none true))
        = .error (.failed error) world ∧ error.Traced program := by
  intro source program error
  have lexed : lex source = .ok
      [⟨.keyword .funWord, ⟨0, 3⟩⟩, ⟨.ident "f", ⟨4, 5⟩⟩, ⟨.leftParen, ⟨5, 6⟩⟩, ⟨.ident "x", ⟨6, 7⟩⟩,
        ⟨.rightParen, ⟨7, 8⟩⟩, ⟨.arrow, ⟨9, 11⟩⟩, ⟨.ident "x", ⟨12, 13⟩⟩, ⟨.plus, ⟨14, 15⟩⟩,
        ⟨.string "a", ⟨16, 19⟩⟩, ⟨.newline, ⟨19, 20⟩⟩, ⟨.keyword .funWord, ⟨21, 24⟩⟩,
        ⟨.ident "g", ⟨25, 26⟩⟩, ⟨.leftParen, ⟨26, 27⟩⟩, ⟨.rightParen, ⟨27, 28⟩⟩, ⟨.arrow, ⟨29, 31⟩⟩,
        ⟨.ident "f", ⟨32, 33⟩⟩, ⟨.leftParen, ⟨33, 34⟩⟩, ⟨.int 1, ⟨34, 35⟩⟩, ⟨.rightParen, ⟨35, 36⟩⟩,
        ⟨.newline, ⟨36, 37⟩⟩, ⟨.ident "g", ⟨38, 39⟩⟩, ⟨.leftParen, ⟨39, 40⟩⟩,
        ⟨.rightParen, ⟨40, 41⟩⟩, ⟨.endOfInput, ⟨41, 41⟩⟩] := by
    decide +kernel
  have parsed : parse source = .ok program := by
    rw [parse, lexed]
    rfl
  obtain ⟨world, failed⟩ : ∃ world,
      (evalProgram 9 0 program).run (.ofConsole (.ofInput [] .none true))
        = .error (.failed error) world := ⟨_, rfl⟩
  exact ⟨parsed, world, failed, traceback_through_code parsed failed⟩

end Primer
