import Primer.Proofs.Evaluation.Invariant
import Primer.Proofs.Machine.Bindings
import Primer.Proofs.Machine.Protocol
import Primer.Proofs.Program.Placement
import Primer.Session.Run

/-!
# Keywords in place never stray

A `break` or `continue` that is in place ends a loop. Two facts are proved by one induction over the
budget. A node whose keywords are in place is never left by a signal, whatever the functions it calls
do, because calls end every signal. And if the keywords of those functions are in place as well, no
call has a signal to complain about. The second fact needs to know what is bound in the scopes, the
first does not; `strict` is the assumption that makes the difference.
-/

namespace Primer

/-- The keywords of every function inside the value are in place. -/
inductive Value.Placed : Value → Prop
  | number (x : Number) : Placed (.number x)
  | string (x : String) : Placed (.string x)
  | native (x : Native) : Placed (.native x)
  | list {elements : List Value} (each : ∀ element ∈ elements, Placed element) :
      Placed (.list elements)
  | function {value : Function} (body : value.body.placed false = true) : Placed (.function value)

/-- What is said of values in a run that may be strict. -/
def Value.PlacedIf (strict : Prop) (value : Value) : Prop :=
  strict → value.Placed

/-- What is said of worlds in a run that may be strict. -/
def World.PlacedIf (strict : Prop) (world : World) : Prop :=
  strict → world.scopes.Hold Value.Placed

/-- What a strict run keeps: functions come from code whose keywords are in place. -/
def placing (globals : ScopeId) (strict : Prop) : Invariant Unit globals where
  world _ := World.PlacedIf strict
  value _ := Value.PlacedIf strict
  node _ _ node := strict → ∃ inLoop, node.placed inLoop = true
  signal _ _ := True
  failure _ _ := True
  stopped _ := True

theorem placing_lawful (globals : ScopeId) (strict : Prop) :
    (placing globals strict).Lawful where
  value_later _ value := value
  node_later _ node := node
  child := by
    intro _ _ node child placed member strictly
    obtain ⟨inLoop, node⟩ := placed strictly
    exact Node.exists_placed_of_child node member
  number _ x _ := .number x
  string _ x _ := .string x
  list := by
    intro _ values
    constructor
    · intro placed value member strictly
      cases placed strictly with
      | list each => exact each value member
    · intro each strictly
      exact .list fun value member => each value member strictly
  lookup _ world found strictly := (world strictly).get? found
  assign _ _ value world strictly := (world strictly).set _ _ (value strictly)
  closure := by
    intro _ _ name params body span placed strictly
    obtain ⟨inLoop, function⟩ := placed strictly
    exact .function (by simpa [Node.placed] using function)
  enter := by
    intro _ _ _ _ _ f values world _ function each _ hold
    refine ⟨(), le_rfl, fun strictly => ?_, fun node member strictly => ⟨false, ?_⟩⟩
    · refine (hold strictly).push ((Scope.holds_empty _).setAll fun binding bound => ?_)
      exact each _ (List.of_mem_zip bound).2 strictly
    · cases function strictly with
      | function body => exact Body.placed_iff.mp body node member
  callScope _ each hold :=
    ⟨(), le_rfl, fun strictly =>
      (hold strictly).push (Scope.holds_callScope _ fun v member => each v member strictly)⟩
  answer native _ _ world answered :=
    ⟨world, fun _ => Native.good_of_execute .number .string answered⟩
  breakdown _ _ _ _ _ := trivial
  await _ _ _ _ _ := trivial
  fail _ _ _ _ := trivial
  continuing _ := trivial
  breaking _ := trivial
  stray _ _ := trivial
  stop _ := trivial

/-- How an evaluation ends that is confined to its place: a signal leaves it only if the place is in
the body of a loop, and no signal was met that has no loop to end. -/
def Confined (strict : Prop) (inLoop : Bool) {α : Type} (post : α → Prop) :
    EStateM.Result Exit World α → Prop
  | .ok a w => World.PlacedIf strict w ∧ post a
  | .error (.returned v) w => World.PlacedIf strict w ∧ Value.PlacedIf strict v
  | .error (.broke _) w => World.PlacedIf strict w ∧ inLoop = true
  | .error (.continued _) w => World.PlacedIf strict w ∧ inLoop = true
  | .error (.failed e) _ => strict → ∀ word, e.fault ≠ .outsideLoop word
  | .error .awaitingInput _ => True
  | .error .outOfBudget _ => True

/-- The evaluation is confined to its place from every world that is as it should be. -/
def Confines (strict : Prop) (inLoop : Bool) {α : Type} (post : α → Prop) (x : Eval α) : Prop :=
  ∀ w, World.PlacedIf strict w → Confined strict inLoop post (x w)

/-- Nodes are confined to their places. -/
def ConfinesNodes {globals : ScopeId} (strict : Prop) (inner : Evaluator globals) : Prop :=
  ∀ (inLoop : Bool) (c : Context globals) (n : Node), n.placed inLoop = true →
    Confines strict inLoop (Value.PlacedIf strict) (inner c n)

namespace Confines

variable {globals : ScopeId} {strict : Prop} {inLoop : Bool} {α β : Type} {post : α → Prop}
  {post' : β → Prop}

theorem pure {a : α} (holds : post a) : Confines strict inLoop post (Pure.pure a) :=
  fun _ world => ⟨world, holds⟩

theorem bind {x : Eval α} {f : α → Eval β} (first : Confines strict inLoop post x)
    (next : ∀ a, post a → Confines strict inLoop post' (f a)) :
    Confines strict inLoop post' (x >>= f) := by
  intro w world
  have confined := first w world
  simp only [Bind.bind, EStateM.bind]
  cases ran : x w with
  | ok a w₁ =>
    rw [ran] at confined
    obtain ⟨world₁, holds⟩ := confined
    exact next a holds w₁ world₁
  | error exit w₁ =>
    rw [ran] at confined
    cases exit <;> exact confined

theorem discard {x : Eval α} (first : Confines strict inLoop post x) :
    Confines strict inLoop (fun _ => True) (Functor.discard x) :=
  first.bind fun _ _ => .pure trivial

theorem fail {c : Context globals} {fault : RuntimeFault} {span : Span}
    (other : ∀ word, fault ≠ .outsideLoop word) :
    Confines strict inLoop post (Eval.fail c fault span : Eval α) :=
  fun _ _ _ => other

theorem spent : Confines strict inLoop post (throw .outOfBudget : Eval α) :=
  fun _ _ => trivial

theorem assign {c : Context globals} {name : String} {v : Value} (value : Value.PlacedIf strict v) :
    Confines strict inLoop (fun _ => True) (Eval.assign c name v) :=
  fun _ world => ⟨fun strictly => (world strictly).set _ _ (value strictly), trivial⟩

theorem newScope {scope : Scope} (holds : strict → scope.Holds Value.Placed) :
    Confines strict inLoop (fun _ => True) (Eval.newScope scope) :=
  fun _ world => ⟨fun strictly => (world strictly).push (holds strictly), trivial⟩

/-- What the end of a turn holds. -/
def TurnHolds (strict : Prop) : Eval.Turn → Prop
  | .yielded v => Value.PlacedIf strict v
  | .skipped => True
  | .stopped => True

/-- A turn of a loop ends the signals of its body, so it fits into any place. -/
theorem turn {x : Eval Value} (body : Confines strict true (Value.PlacedIf strict) x) :
    Confines strict inLoop (TurnHolds strict) (Eval.turn x) := by
  intro w world
  have confined := body w world
  unfold Eval.turn
  generalize x w = result at confined ⊢
  cases result with
  | ok v w₁ => exact confined
  | error exit w₁ =>
    cases exit with
    | broke | continued => exact ⟨confined.1, trivial⟩
    | _ => exact confined

/-- A call ends every signal of its body. That it has none to complain about is known if the run is
strict; otherwise it is not claimed. -/
theorem finishCall {called : Context globals} {x : Eval Value}
    (body : strict → Confines strict false (Value.PlacedIf strict) x) :
    Confines strict inLoop (Value.PlacedIf strict) (Eval.finishCall called x) := by
  intro w world
  unfold Eval.finishCall
  by_cases strictly : strict
  · have confined := body strictly w world
    generalize x w = result at confined ⊢
    cases result with
    | ok v w₁ => exact confined
    | error exit w₁ =>
      cases exit with
      | broke | continued => exact absurd confined.2 Bool.false_ne_true
      | _ => exact confined
  · generalize x w = result
    cases result with
    | ok v w₁ => exact ⟨fun h => absurd h strictly, fun h => absurd h strictly⟩
    | error exit w₁ =>
      cases exit with
      | returned => exact ⟨fun h => absurd h strictly, fun h => absurd h strictly⟩
      | broke | continued | failed => exact fun h => absurd h strictly
      | awaitingInput | outOfBudget => trivial

end Confines

namespace ConfinesNodes

variable {globals : ScopeId} {strict : Prop} {inner : Evaluator globals} {inLoop : Bool}
  {c : Context globals}

theorem null (strict : Prop) : Value.PlacedIf strict .null :=
  fun _ => .number _

theorem all (confines : ConfinesNodes strict inner) {nodes : List Node}
    (placed : ∀ node ∈ nodes, node.placed inLoop = true) :
    Confines strict inLoop (fun vs => ∀ v ∈ vs, Value.PlacedIf strict v)
      (Eval.all inner c nodes) := by
  induction nodes with
  | nil => exact .pure (by simp)
  | cons node rest ih =>
    obtain ⟨first, others⟩ := List.forall_mem_cons.mp placed
    refine (confines inLoop c node first).bind fun v value => ?_
    refine (ih others).bind fun vs values => .pure ?_
    exact List.forall_mem_cons.mpr ⟨value, values⟩

theorem sequence (confines : ConfinesNodes strict inner) {last : Value} {nodes : List Node}
    (value : Value.PlacedIf strict last)
    (placed : ∀ node ∈ nodes, node.placed inLoop = true) :
    Confines strict inLoop (Value.PlacedIf strict) (Eval.sequence inner c last nodes) := by
  induction nodes generalizing last with
  | nil => exact .pure value
  | cons node rest ih =>
    obtain ⟨first, others⟩ := List.forall_mem_cons.mp placed
    exact (confines inLoop c node first).bind fun v value => ih value others

theorem body (confines : ConfinesNodes strict inner) {body : Body}
    (placed : body.placed inLoop = true) :
    Confines strict inLoop (Value.PlacedIf strict) (Eval.body inner c body) := by
  cases body with
  | inline statement => exact confines inLoop c statement placed
  | block statements span =>
    have ran : Confines strict inLoop _ (Eval.sequence inner c .null statements) :=
      confines.sequence (null strict) (Node.placedAll_iff.mp placed)
    exact ran.discard.bind fun _ _ => .pure (null strict)

theorem lookup (ident : Ident) :
    Confines strict inLoop (Value.PlacedIf strict) (Eval.lookup c ident) := by
  intro w world
  simp only [Eval.lookup, Bind.bind, EStateM.bind, get, getThe, MonadStateOf.get, EStateM.get]
  cases found : w.scopes.get? c.scope ident.name with
  | some v => exact ⟨world, fun strictly => (world strictly).get? found⟩
  | none => exact Confines.fail (by simp) w world

theorem binary (confines : ConfinesNodes strict inner) {left right : Node} {operator : Token}
    (first : left.placed inLoop = true) (second : right.placed inLoop = true) :
    Confines strict inLoop (Value.PlacedIf strict)
      (Eval.binary inner c left operator right) := by
  refine (confines inLoop c left first).bind fun a valueA => ?_
  refine (confines inLoop c right second).bind fun b valueB => ?_
  have results : SameResult ((placing globals strict).correspondence.values ()) _ _ :=
    (placing_lawful globals strict).correspondence.binary operator ⟨rfl, valueA⟩ ⟨rfl, valueB⟩
  generalize a.binary operator b = result at results ⊢
  cases results with
  | ok values => exact .pure values.2
  | error fault => exact .fail (by simp)

theorem unary (confines : ConfinesNodes strict inner) {operand : Node} {operator : Token}
    {span : Span} (placed : operand.placed inLoop = true) :
    Confines strict inLoop (Value.PlacedIf strict)
      (Eval.unary inner c operator operand span) := by
  refine (confines inLoop c operand placed).bind fun v value => ?_
  have results : SameResult ((placing globals strict).correspondence.values ()) _ _ :=
    (placing_lawful globals strict).correspondence.unary operator ⟨rfl, value⟩
  generalize v.unary operator = result at results ⊢
  cases results with
  | ok values => exact .pure values.2
  | error fault => exact .fail (by simp)

theorem branches (confines : ConfinesNodes strict inner) : (others : Branches) →
    others.placed inLoop = true →
    Confines strict inLoop (Value.PlacedIf strict) (Eval.branches inner c others)
  | .none, _ => .pure (null strict)
  | .otherwise last, placed => confines.body placed
  | .elif condition first others, placed => by
    simp only [Branches.placed, Bool.and_eq_true] at placed
    obtain ⟨⟨test, body⟩, rest⟩ := placed
    refine (confines inLoop c condition test).bind fun v _ => ?_
    cases v.isTrue with
    | true => exact confines.body body
    | false => exact branches confines others rest

theorem number (confines : ConfinesNodes strict inner) {header : Node}
    (placed : header.placed inLoop = true) :
    Confines strict inLoop (fun _ => True) (Eval.number inner c header) := by
  refine (confines inLoop c header placed).bind fun v _ => ?_
  cases v with
  | number x => exact .pure trivial
  | _ => exact .fail (by simp)

theorem loopValue {loop : Body} {yielded : List Value}
    (values : ∀ v ∈ yielded, Value.PlacedIf strict v) :
    Value.PlacedIf strict (Eval.loopValue loop yielded) := by
  unfold Eval.loopValue
  split
  · exact null strict
  · exact fun strictly => .list fun v member => values v (List.mem_reverse.mp member) strictly

/-- A loop goes on after a turn with what was yielded before, and perhaps one value more. -/
theorem afterTurn {yielded : List Value} {next : List Value → Eval Value} {loop : Body}
    (values : ∀ v ∈ yielded, Value.PlacedIf strict v)
    (goesOn : ∀ vs : List Value, (∀ v ∈ vs, Value.PlacedIf strict v) →
      Confines strict inLoop (Value.PlacedIf strict) (next vs)) (turn : Eval.Turn) :
    Confines.TurnHolds strict turn → Confines strict inLoop (Value.PlacedIf strict)
      (match turn with
        | .yielded value => next (value :: yielded)
        | .skipped => next yielded
        | .stopped => return Eval.loopValue loop yielded) := by
  intro ended
  cases turn with
  | yielded value => exact goesOn _ (List.forall_mem_cons.mpr ⟨ended, values⟩)
  | skipped => exact goesOn _ values
  | stopped => exact .pure (loopValue values)

theorem whileTurns (confines : ConfinesNodes strict inner) {condition : Node} {loop : Body}
    (test : condition.placed inLoop = true) (body : loop.placed true = true) (budget : Nat)
    {yielded : List Value} (values : ∀ v ∈ yielded, Value.PlacedIf strict v) :
    Confines strict inLoop (Value.PlacedIf strict)
      (Eval.whileTurns inner c condition loop budget yielded) := by
  induction budget generalizing yielded with
  | zero => exact .spent
  | succ budget ih =>
    -- The condition stands where the loop stands, the body stands in the loop.
    refine (confines inLoop c condition test).bind fun v _ => ?_
    cases v.isTrue with
    | false => exact .pure (loopValue values)
    | true => exact (confines.body body).turn.bind (afterTurn values fun vs => ih)

theorem repeatTurns (confines : ConfinesNodes strict inner) {loop : Body}
    (body : loop.placed true = true) (count : Nat) {yielded : List Value}
    (values : ∀ v ∈ yielded, Value.PlacedIf strict v) :
    Confines strict inLoop (Value.PlacedIf strict)
      (Eval.repeatTurns inner c loop count yielded) := by
  induction count generalizing yielded with
  | zero => exact .pure (loopValue values)
  | succ count ih =>
    exact (confines.body body).turn.bind (afterTurn values fun vs => ih)

theorem forTurns (confines : ConfinesNodes strict inner) {counter : String} {count : Eval.Count}
    {loop : Body} (body : loop.placed true = true) (budget : Nat) (current : Number)
    {yielded : List Value} (values : ∀ v ∈ yielded, Value.PlacedIf strict v) :
    Confines strict inLoop (Value.PlacedIf strict)
      (Eval.forTurns inner c counter count loop budget current yielded) := by
  induction budget generalizing current yielded with
  | zero => exact .spent
  | succ budget ih =>
    simp only [Eval.forTurns]
    cases count.admits current with
    | false => exact .pure (loopValue values)
    | true =>
      have bound : Confines strict inLoop (fun _ => True)
          (Eval.assign c counter (.number current)) := .assign fun _ => .number current
      refine bound.bind fun _ _ => ?_
      exact (confines.body body).turn.bind (afterTurn values fun vs => ih _)

theorem forLoop (confines : ConfinesNodes strict inner) (budget : Nat) {counter : Ident}
    {first limit : Node} {step : Option Node} {loop : Body}
    (start : first.placed inLoop = true) (stop : limit.placed inLoop = true)
    (stride : Node.placedOption inLoop step = true) (body : loop.placed true = true) :
    Confines strict inLoop (Value.PlacedIf strict)
      (Eval.forLoop inner c budget counter first limit step loop) := by
  refine (confines.number start).bind fun x _ => ?_
  refine (confines.number stop).bind fun y _ => ?_
  cases step with
  | none =>
    have one : Confines strict inLoop (fun _ => True) (pure (.int 1) : Eval Number) := .pure trivial
    exact one.bind fun z _ => confines.forTurns body budget x (by simp)
  | some step =>
    exact (confines.number stride).bind fun z _ => confines.forTurns body budget x (by simp)

theorem define {name : Option Ident} {params : List Ident} {body : Body}
    (placed : body.placed false = true) :
    Confines strict inLoop (Value.PlacedIf strict) (Eval.define c name params body) := by
  cases name with
  | none => exact .pure fun _ => .function placed
  | some ident =>
    have bound : Confines strict inLoop (fun _ => True) (Eval.assign c ident.name
        (.function ⟨some ident.name, params.map Ident.name, body, c.scope⟩)) :=
      .assign fun _ => .function placed
    exact bound.bind fun _ _ => .pure fun _ => .function placed

theorem checkArity {v : Value} {expected given : Nat} {span : Span} :
    Confines strict inLoop (fun _ => True) (Eval.checkArity c v expected given span) := by
  unfold Eval.checkArity
  split
  · exact .fail (by simp)
  · split
    · exact .fail (by simp)
    · exact .pure trivial

/-- What a built-in function fails with is a failure of the console. -/
theorem converse {span : Span} (native : Native) (scope : Scope) :
    Confines strict inLoop (Value.PlacedIf strict)
      (Eval.converse c span (native.execute scope)) := by
  intro w world
  unfold Eval.converse
  cases ran : (native.execute scope).run w.console with
  | ok v console => exact ⟨world, fun _ => Native.good_of_execute .number .string ran⟩
  | error interruption console =>
    cases interruption with
    | failed fault =>
      intro _ word
      rcases Protocol.fault_of_execute ran with rfl | ⟨message, rfl⟩ <;> simp
    | awaitingInput => trivial

theorem apply (confines : ConfinesNodes strict inner) {v : Value} {vs : List Value} {span : Span}
    (function : Value.PlacedIf strict v) (values : ∀ v ∈ vs, Value.PlacedIf strict v) :
    Confines strict inLoop (Value.PlacedIf strict) (Eval.apply inner c v vs span) := by
  cases v with
  | function f =>
    -- The scope of the call holds the arguments.
    have bound : strict →
        ((Scope.empty (some f.closure)).setAll (f.params.zip vs)).Holds Value.Placed := by
      intro strictly
      refine (Scope.holds_empty _).setAll fun binding member => ?_
      exact values _ (List.of_mem_zip member).2 strictly
    refine checkArity.bind fun _ _ => (Confines.newScope bound).bind fun scope _ => ?_
    refine .finishCall fun strictly => confines.body ?_
    cases function strictly with
    | function placed => exact placed
  | native native =>
    have bound : strict → (Native.callScope globals vs).Holds Value.Placed := fun strictly =>
      Scope.holds_callScope _ fun v member => values v member strictly
    have answers : Confines strict inLoop (Value.PlacedIf strict)
        (do
          let scope ← Eval.newScope (Native.callScope globals vs)
          Eval.converse (⟨scope, ⟨native.name, some span⟩ :: c.frames⟩ : Context globals) span
            (native.execute (Native.callScope globals vs))) :=
      (Confines.newScope bound).bind fun _ _ => converse native _
    simp only [Eval.apply]
    cases native.arity? with
    | none =>
      have unchecked : Confines strict inLoop (fun _ => True) (pure () : Eval Unit) := .pure trivial
      exact unchecked.bind fun _ _ => answers
    | some arity => exact checkArity.bind fun _ _ => answers
  | _ => exact .fail (by simp)

theorem call (confines : ConfinesNodes strict inner) {callee : Node} {arguments : List Node}
    {span : Span} (function : callee.placed inLoop = true)
    (placed : ∀ node ∈ arguments, node.placed inLoop = true) :
    Confines strict inLoop (Value.PlacedIf strict)
      (Eval.call inner c callee arguments span) := by
  refine (confines inLoop c callee function).bind fun v value => ?_
  exact (confines.all placed).bind fun vs values => confines.apply value values

/-- One level of evaluation. -/
theorem node (confines : ConfinesNodes strict inner) (budget : Nat) {node : Node}
    (placed : node.placed inLoop = true) :
    Confines strict inLoop (Value.PlacedIf strict) (Eval.node inner budget c node) := by
  cases node with
  | number value => exact .pure fun _ => .number value
  | string value => exact .pure fun _ => .string value
  | list elements =>
    refine (confines.all (Node.placedAll_iff.mp placed)).bind fun vs values => ?_
    exact .pure fun strictly => .list fun v member => values v member strictly
  | «variable» ident => exact lookup ident
  | assign target value =>
    refine (confines inLoop c value placed).bind fun v holds => ?_
    exact (Confines.assign holds).bind fun _ _ => .pure holds
  | binary left operator right =>
    simp only [Node.placed, Bool.and_eq_true] at placed
    exact confines.binary placed.1 placed.2
  | unary operator operand => exact confines.unary placed
  | conditional condition body others => exact confines.branches (.elif condition body others) placed
  | forLoop counter first limit step body =>
    simp only [Node.placed, Bool.and_eq_true] at placed
    obtain ⟨⟨⟨start, stop⟩, stride⟩, loop⟩ := placed
    exact confines.forLoop budget start stop stride loop
  | whileLoop condition body =>
    simp only [Node.placed, Bool.and_eq_true] at placed
    exact confines.whileTurns placed.1 placed.2 budget (by simp)
  | repeatLoop count body =>
    simp only [Node.placed, Bool.and_eq_true] at placed
    refine (confines.number placed.1).bind fun x _ => ?_
    exact confines.repeatTurns placed.2 _ (by simp)
  | function name params body => exact define placed
  | call callee arguments =>
    simp only [Node.placed, Bool.and_eq_true, Node.placedAll_iff] at placed
    exact confines.call placed.1 placed.2
  | returning value =>
    cases value with
    | none => exact fun _ world => ⟨world, null strict⟩
    | some result =>
      exact (confines inLoop c result placed).bind fun v holds _ world => ⟨world, holds⟩
  | continuing | breaking => exact fun _ world => ⟨world, placed⟩

/-- Every evaluation is confined to its place. -/
theorem eval (strict : Prop) (budget : Nat) :
    ConfinesNodes strict (Primer.eval budget : Evaluator globals) := by
  induction budget with
  | zero => exact fun _ _ _ _ => .spent
  | succ budget ih => exact fun _ _ _ placed => ih.node budget placed

theorem evalProgram (strict : Prop) (budget : Nat) (scope : ScopeId) {program : Block}
    (placed : program.placed = true) :
    Confines strict false (Value.PlacedIf strict) (evalProgram budget scope program) :=
  .finishCall fun _ => (eval strict budget).sequence (null strict) (Block.placed_iff.mp placed)

end ConfinesNodes

theorem World.ofConsole_hold (console : Console) :
    (World.ofConsole console).scopes.Hold Value.Placed := by
  intro scope member
  rw [List.mem_singleton.mp (Array.mem_toList_iff.mpr member)]
  exact Scope.holds_global .number .native

/-- Keywords in place never fail: a program whose keywords are in place does not end for want of a
loop, and a node whose keywords are in place is never left by a signal, whatever stands in the scopes. -/
theorem placed_keywords_never_stray :
    (∀ program : Block, program.placed = true → ∀ budget console error world,
      (evalProgram budget 0 program).run (.ofConsole console) = .error (.failed error) world →
        ∀ word, error.fault ≠ .outsideLoop word) ∧
    ∀ node : Node, node.placed false = true → ∀ budget (globals : ScopeId)
      (context : Context globals) world span world',
      (eval budget context node).run world ≠ .error (.broke span) world' ∧
      (eval budget context node).run world ≠ .error (.continued span) world' := by
  constructor
  · intro program placed budget console error world failed
    have confined := ConfinesNodes.evalProgram True budget 0 placed (.ofConsole console)
      fun _ => World.ofConsole_hold console
    rw [EStateM.run] at failed
    rw [failed] at confined
    exact confined trivial
  · intro node placed budget globals context world span world'
    have confined := ConfinesNodes.eval False budget false context node placed world False.elim
    constructor
    · intro broke
      rw [EStateM.run] at broke
      rw [broke] at confined
      exact Bool.false_ne_true confined.2
    · intro continued
      rw [EStateM.run] at continued
      rw [continued] at confined
      exact Bool.false_ne_true confined.2

/-- A function whose body is a loop that ends at once is called from the body of another loop. -/
theorem placed_keywords_never_stray_called_loop :
    let loop : Node :=
      .whileLoop (.number (.int 1) ⟨17, 18⟩) (.inline (.breaking ⟨22, 27⟩)) ⟨11, 27⟩
    let program : Block :=
      ⟨[.function (some ⟨"f", ⟨4, 5⟩⟩) [] (.inline loop) ⟨4, 27⟩,
        .repeatLoop (.number (.int 2) ⟨36, 37⟩)
          (.inline (.call (.variable ⟨"f", ⟨41, 42⟩⟩) [] ⟨41, 43⟩)) ⟨29, 43⟩], ⟨4, 43⟩⟩
    (program.placed = true ∧ ∀ budget console error world,
      (evalProgram budget 0 program).run (.ofConsole console) = .error (.failed error) world →
        ∀ word, error.fault ≠ .outsideLoop word) ∧
    loop.placed false = true ∧ ∀ budget (globals : ScopeId) (context : Context globals) world span
        world',
      (eval budget context loop).run world ≠ .error (.broke span) world' ∧
      (eval budget context loop).run world ≠ .error (.continued span) world' := by
  intro loop program
  have placed : program.placed = true := by decide
  have placed' : loop.placed false = true := by decide
  exact ⟨⟨placed, placed_keywords_never_stray.1 program placed⟩, placed',
    placed_keywords_never_stray.2 loop placed'⟩

/-- The header of a loop is not part of its body. -/
example : ∃ world, (evalProgram 5 0
    ⟨[.whileLoop (.breaking ⟨6, 11⟩) (.inline (.number (.int 1) ⟨15, 16⟩)) ⟨0, 16⟩], ⟨0, 16⟩⟩).run
      (.ofConsole (.ofInput [] .none true))
    = .error (.failed ⟨.outsideLoop .breakWord, ⟨6, 11⟩, [.program]⟩) world :=
  ⟨_, rfl⟩

end Primer
