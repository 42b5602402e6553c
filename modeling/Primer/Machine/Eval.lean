import Primer.Machine.Dialogue

/-!
# Evaluation

Evaluating a node yields a value or leaves the construct in one of the ways of `Exit`: a `return`, a
`break` or a `continue` on the way to what it ends, or a failure. The scopes and the console survive
every exit.

Programs need not end, so evaluation has a budget: `eval 0` gives up, and each level of nesting, each
call and each turn of a loop of unknown length spends one unit. The equations of the language are the
parameterised functions below, in which `inner` evaluates the nodes inside; `eval` ties the knot.
-/

namespace Primer

/-- What a run acts on. -/
structure World where
  scopes : Scopes
  console : Console

/-- The ways out of an evaluation other than with a value. -/
inductive Exit where
  | returned (value : Value)
  | broke (span : Span)
  | continued (span : Span)
  | failed (error : RuntimeError)
  | awaitingInput
  | outOfBudget

abbrev Eval := EStateM Exit World

/-- Where a node is evaluated: its scope, and the calls under way, the innermost first. The scope of
programs stays the same throughout; it is the first one unless another is named. -/
structure Context (globals : ScopeId := 0) where
  scope : ScopeId
  frames : List Frame

/-- An evaluator of nodes, by the scope of programs. -/
abbrev Evaluator (globals : ScopeId) := Context globals → Node → Eval Value

namespace Eval

variable {globals : ScopeId}

def fail {α : Type} (context : Context globals) (fault : RuntimeFault) (span : Span) : Eval α :=
  throw (.failed ⟨fault, span, context.frames⟩)

/-- The value of a name. -/
def lookup (context : Context globals) (ident : Ident) : Eval Value := do
  match (← get).scopes.get? context.scope ident.name with
  | some value => return value
  | none => fail context (.notDefined ident.name) ident.span

/-- Binds a name in the current scope. -/
def assign (context : Context globals) (name : String) (value : Value) : Eval Unit :=
  modify fun world => { world with scopes := world.scopes.set context.scope name value }

/-- Makes a scope and returns its index. -/
def newScope (scope : Scope) : Eval ScopeId :=
  modifyGet fun world =>
    (world.scopes.size, { world with scopes := world.scopes.push scope })

/-- Lets a built-in function talk to the console. -/
def converse (context : Context globals) (span : Span) (dialogue : Dialogue Value) : Eval Value :=
  fun world =>
    match dialogue.run world.console with
    | .ok value console => .ok value { world with console }
    | .error (.failed fault) console =>
      .error (.failed ⟨fault, span, context.frames⟩) { world with console }
    | .error .awaitingInput console => .error .awaitingInput { world with console }

/-- The values of several nodes, in order. -/
def all (inner : Evaluator globals) (context : Context globals) : List Node → Eval (List Value)
  | [] => return []
  | node :: rest => do
    let value ← inner context node
    return value :: (← all inner context rest)

/-- The value of the last of several statements, or of none the value given. -/
def sequence (inner : Evaluator globals) (context : Context globals) (last : Value) :
    List Node → Eval Value
  | [] => return last
  | statement :: rest => do
    let value ← inner context statement
    sequence inner context value rest

/-- A body has the value of its statement, or null if it is a block. -/
def body (inner : Evaluator globals) (context : Context globals) : Body → Eval Value
  | .inline statement => inner context statement
  | .block statements _ => do
    discard (sequence inner context .null statements)
    return .null

/-- The spans at which an operator's failure is reported: both operands if they do not fit the
operator at all, and otherwise the right one. -/
def operationSpan (fault : OperationFault) (left right : Node) : Span :=
  match fault with
  | .illegal => left.span.through right.span
  | _ => right.span

/-- Both operands are evaluated whatever the operator. -/
def binary (inner : Evaluator globals) (context : Context globals) (left : Node) (operator : Token)
    (right : Node) : Eval Value := do
  let a ← inner context left
  let b ← inner context right
  match a.binary operator b with
  | .ok value => return value
  | .error fault => fail context (.operation fault) (operationSpan fault left right)

def unary (inner : Evaluator globals) (context : Context globals) (operator : Token)
    (operand : Node) (span : Span) : Eval Value := do
  let value ← inner context operand
  match value.unary operator with
  | .ok result => return result
  | .error fault => fail context (.operation fault) span

/-- The branches of a conditional, of which the first with a true condition is evaluated. -/
def branches (inner : Evaluator globals) (context : Context globals) : Branches → Eval Value
  | .none => return .null
  | .otherwise last => body inner context last
  | .elif condition first others => do
    if (← inner context condition).isTrue then body inner context first
    else branches inner context others

/-- The value of a node that has to be a number. -/
def number (inner : Evaluator globals) (context : Context globals) (node : Node) : Eval Number := do
  match ← inner context node with
  | .number value => return value
  | _ => fail context (.operation .illegal) node.span

/-- How one turn of a loop ended. -/
inductive Turn where
  | yielded (value : Value)
  | skipped
  | stopped

/-- Ends a `continue` or `break` of a loop body. -/
def turn (action : Eval Value) : Eval Turn := fun world =>
  match action world with
  | .ok value world => .ok (.yielded value) world
  | .error (.continued _) world => .ok .skipped world
  | .error (.broke _) world => .ok .stopped world
  | .error exit world => .error exit world

/-- The value of a loop: null if its body is a block, and otherwise the list of what the turns
yielded, which stand in reverse. -/
def loopValue (body : Body) (yielded : List Value) : Value :=
  if body.isBlock then .null else .list yielded.reverse

/-- Runs the body as long as the condition holds. -/
def whileTurns (inner : Evaluator globals) (context : Context globals) (condition : Node)
    (loop : Body) : Nat → List Value → Eval Value
  | 0, _ => throw .outOfBudget
  | budget + 1, yielded => do
    if (← inner context condition).isTrue then
      match ← turn (body inner context loop) with
      | .yielded value => whileTurns inner context condition loop budget (value :: yielded)
      | .skipped => whileTurns inner context condition loop budget yielded
      | .stopped => return loopValue loop yielded
    else return loopValue loop yielded

/-- Runs the body so many times. -/
def repeatTurns (inner : Evaluator globals) (context : Context globals) (loop : Body) :
    Nat → List Value → Eval Value
  | 0, yielded => return loopValue loop yielded
  | count + 1, yielded => do
    match ← turn (body inner context loop) with
    | .yielded value => repeatTurns inner context loop count (value :: yielded)
    | .skipped => repeatTurns inner context loop count yielded
    | .stopped => return loopValue loop yielded

/-- The limits of a counting loop. -/
structure Count where
  limit : Number
  step : Number
  deriving DecidableEq

namespace Count

/-- A loop counts up unless its step is below zero or no number. -/
def ascending (count : Count) : Bool :=
  (count.step.order? (.int 0)).any (· != .lt)

/-- Whether a turn is due. -/
def admits (count : Count) (current : Number) : Bool :=
  (current.order? count.limit).any fun order =>
    if count.ascending then order == .lt else order == .gt

end Count

/-- Runs the body for each number up to the limit. The counter is bound anew before each turn, so a
body cannot change how often it runs. -/
def forTurns (inner : Evaluator globals) (context : Context globals) (counter : String)
    (count : Count) (loop : Body) : Nat → Number → List Value → Eval Value
  | 0, _, _ => throw .outOfBudget
  | budget + 1, current, yielded => do
    if count.admits current then
      assign context counter (.number current)
      let next := current.add count.step
      match ← turn (body inner context loop) with
      | .yielded value =>
        forTurns inner context counter count loop budget next (value :: yielded)
      | .skipped => forTurns inner context counter count loop budget next yielded
      | .stopped => return loopValue loop yielded
    else return loopValue loop yielded

def forLoop (inner : Evaluator globals) (context : Context globals) (budget : Nat) (counter : Ident)
    (first limit : Node) (step : Option Node) (loop : Body) : Eval Value := do
  let start ← number inner context first
  let limit ← number inner context limit
  let step ←
    match step with
    | some step => number inner context step
    | none => pure (.int 1)
  forTurns inner context counter.name ⟨limit, step⟩ loop budget start []

/-- Makes a function of the current scope, and binds it there if it has a name. -/
def define (context : Context globals) (name : Option Ident) (params : List Ident) (body : Body) :
    Eval Value := do
  let function : Value :=
    .function ⟨name.map Ident.name, params.map Ident.name, body, context.scope⟩
  match name with
  | some ident => assign context ident.name function
  | none => pure ()
  return function

/-- Refuses a call with the wrong number of arguments. -/
def checkArity (context : Context globals) (callee : Value) (expected given : Nat) (span : Span) :
    Eval Unit :=
  if expected < given then
    fail context (.tooManyArgs (given - expected) callee.text) span
  else if given < expected then
    fail context (.tooFewArgs (expected - given) callee.text) span
  else pure ()

/-- Ends a `return` of a function body. A `break` or `continue` has no loop to end there. -/
def finishCall (context : Context globals) (action : Eval Value) : Eval Value := fun world =>
  match action world with
  | .error (.returned value) world => .ok value world
  | .error (.broke span) world =>
    .error (.failed ⟨.outsideLoop .breakWord, span, context.frames⟩) world
  | .error (.continued span) world =>
    .error (.failed ⟨.outsideLoop .continueWord, span, context.frames⟩) world
  | result => result

/-- Calls a value with arguments. The body of a function runs in a fresh scope inside the one the
function was created in, and a built-in function in a fresh scope inside that of programs. -/
def apply (inner : Evaluator globals) (context : Context globals) (callee : Value)
    (arguments : List Value) (span : Span) : Eval Value :=
  match callee with
  | .function function => do
    checkArity context callee function.params.length arguments.length span
    let scope ←
      newScope ((Scope.empty (some function.closure)).setAll (function.params.zip arguments))
    let called : Context globals := ⟨scope, ⟨function.shownName, some span⟩ :: context.frames⟩
    finishCall called (body inner called function.body)
  | .native native => do
    match native.arity? with
    | some arity => checkArity context callee arity arguments.length span
    | none => pure ()
    let scope := Native.callScope globals arguments
    let called : Context globals := ⟨← newScope scope, ⟨native.name, some span⟩ :: context.frames⟩
    converse called span (native.execute scope)
  | _ => fail context (.operation .illegal) span

def call (inner : Evaluator globals) (context : Context globals) (callee : Node)
    (arguments : List Node) (span : Span) : Eval Value := do
  let function ← inner context callee
  let values ← all inner context arguments
  apply inner context function values span

/-- One level of evaluation, on top of an evaluator for the nodes inside. -/
def node (inner : Evaluator globals) (budget : Nat) (context : Context globals) : Node → Eval Value
  | .number value _ => return .number value
  | .string value _ => return .string value
  | .list elements _ => do return .list (← all inner context elements)
  | .variable ident => lookup context ident
  | .assign target value _ => do
    let result ← inner context value
    assign context target.name result
    return result
  | .binary left operator right _ => binary inner context left operator right
  | .unary operator operand span => unary inner context operator operand span
  | .conditional condition first others _ =>
    branches inner context (.elif condition first others)
  | .forLoop counter first limit step loop _ =>
    forLoop inner context budget counter first limit step loop
  | .whileLoop condition loop _ => whileTurns inner context condition loop budget []
  | .repeatLoop count loop _ => do
    let times ← number inner context count
    repeatTurns inner context loop times.truncate.toInt.toNat []
  | .function name params body _ => define context name params body
  | .call callee arguments span => call inner context callee arguments span
  | .returning value _ => do
    match value with
    | some node => throw (.returned (← inner context node))
    | none => throw (.returned .null)
  | .continuing span => throw (.continued span)
  | .breaking span => throw (.broke span)

end Eval

/-- Evaluates a node in a context, within a budget. -/
def eval {globals : ScopeId} : Nat → Evaluator globals
  | 0, _, _ => throw .outOfBudget
  | budget + 1, context, node => Eval.node (eval budget) budget context node

/-- Runs a program in a scope. A `return` ends it with its value, and a `break` or `continue` that
reaches the program has no loop to end. -/
def evalProgram (budget : Nat) (scope : ScopeId) (program : Block) : Eval Value :=
  let context : Context scope := ⟨scope, [.program]⟩
  Eval.finishCall context (Eval.sequence (eval budget) context .null program.statements)

end Primer
