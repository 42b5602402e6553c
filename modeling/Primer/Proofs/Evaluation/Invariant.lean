import Primer.Proofs.Evaluation.Fundamental

/-!
# Invariants of evaluation

An invariant is what one run keeps. It is a correspondence of the run with itself, so the laws below
are those of a correspondence read on the diagonal, and `Lawful.eval` needs no induction of its own.
-/

namespace Primer

theorem SameBody.refl {related : Node → Node → Prop} (body : Body)
    (statements : ∀ node ∈ body.statements, related node node) : SameBody related body body := by
  cases body with
  | inline statement => exact .inline (statements statement (by simp [Body.statements]))
  | block nodes => exact .block (List.forall₂_same.mpr statements)

theorem SameBranches.refl {related : Node → Node → Prop} (branches : Branches)
    (nodes : ∀ node ∈ branches.nodes, related node node) :
    SameBranches related branches branches :=
  match branches with
  | .none => .none
  | .otherwise last => .otherwise (.refl last nodes)
  | .elif condition first others =>
    .elif (nodes condition (by simp [Branches.nodes]))
      (.refl first fun node member => nodes node (by simp [Branches.nodes, member]))
      (refl others fun node member => nodes node (by simp [Branches.nodes, member]))

theorem relatedOption_refl {α : Type} {related : α → α → Prop} (value : Option α)
    (holds : ∀ x ∈ value.toList, related x x) : Option.Rel related value value := by
  cases value with
  | none => exact .none
  | some x => exact .some (holds x (by simp))

theorem SameNode.refl {related : Node → Node → Prop} (node : Node)
    (children : ∀ child ∈ node.children, related child child) : SameNode related node node := by
  cases node with
  | number value span => exact .number value span span
  | string value span => exact .string value span span
  | list elements => exact .list (List.forall₂_same.mpr children)
  | «variable» => exact .access rfl
  | assign _ value => exact .assign rfl (children value (by simp [Node.children]))
  | binary left operator right =>
    exact .binary operator (children left (by simp [Node.children]))
      (children right (by simp [Node.children]))
  | unary operator operand => exact .unary operator (children operand (by simp [Node.children]))
  | conditional condition first others =>
    exact .conditional (.refl (.elif condition first others) children)
  | forLoop _ first limit step body =>
    refine .forLoop rfl (children first (by simp [Node.children]))
      (children limit (by simp [Node.children])) (relatedOption_refl step fun node member => ?_)
      (.refl body fun node member => ?_)
    · exact children node (by simp only [Node.children, List.mem_append, member, or_true, true_or,
        List.cons_append, List.mem_cons])
    · exact children node (by simp [Node.children, member])
  | whileLoop condition body =>
    exact .whileLoop (children condition (by simp [Node.children]))
      (.refl body fun node member => children node (by simp [Node.children, member]))
  | repeatLoop count body =>
    exact .repeatLoop (children count (by simp [Node.children]))
      (.refl body fun node member => children node (by simp [Node.children, member]))
  | function => exact .function rfl
  | call callee arguments =>
    exact .call (children callee (by simp [Node.children]))
      (List.forall₂_same.mpr fun node member => children node (by simp [Node.children, member]))
  | returning value => exact .returning (relatedOption_refl value children)
  | continuing span => exact .continuing span span
  | breaking span => exact .breaking span span

/-- Related lists whose elements are equal and satisfy a predicate are one list that does. -/
theorem forall₂_diagonal {α : Type} {holds : α → Prop} {xs ys : List α}
    (related : List.Forall₂ (fun x y => x = y ∧ holds x) xs ys) : xs = ys ∧ ∀ x ∈ xs, holds x := by
  induction related with
  | nil => simp
  | cons first _ ih =>
    obtain ⟨rfl, head⟩ := first
    obtain ⟨rfl, tail⟩ := ih
    exact ⟨rfl, List.forall_mem_cons.mpr ⟨head, tail⟩⟩

/-- What a run keeps, by the stage it has reached. -/
structure Invariant (Γ : Type) (globals : ScopeId) where
  world : Γ → World → Prop
  value : Γ → Value → Prop
  /-- Nodes that may be evaluated in a context. -/
  node : Γ → Context globals → Node → Prop
  /-- The span of a `break` or `continue` on its way out. -/
  signal : Context globals → Span → Prop
  /-- A failure, with the world it leaves. -/
  failure : RuntimeError → World → Prop
  /-- The world of an evaluation cut short by its budget or for want of input. -/
  stopped : World → Prop

namespace Invariant

variable {Γ : Type} [Preorder Γ] {globals : ScopeId} (I : Invariant Γ globals)

/-- A run that keeps an invariant corresponds to itself. -/
def correspondence : Correspondence Γ globals globals where
  worlds γ w w' := w = w' ∧ I.world γ w
  values γ v v' := v = v' ∧ I.value γ v
  nodes γ c c' n n' := c = c' ∧ n = n' ∧ I.node γ c n
  signals c c' s s' := c = c' ∧ s = s' ∧ I.signal c s
  failures e e' w w' := e = e' ∧ w = w' ∧ I.failure e w
  stops w w' := w = w' ∧ I.stopped w

/-- What the result of an evaluation that started at stage `γ` keeps. -/
def Outcome (γ : Γ) (c : Context globals) : EStateM.Result Exit World Value → Prop
  | .ok v w => ∃ δ, γ ≤ δ ∧ I.world δ w ∧ I.value δ v
  | .error (.returned v) w => ∃ δ, γ ≤ δ ∧ I.world δ w ∧ I.value δ v
  | .error (.broke s) w => ∃ δ, γ ≤ δ ∧ I.world δ w ∧ I.signal c s
  | .error (.continued s) w => ∃ δ, γ ≤ δ ∧ I.world δ w ∧ I.signal c s
  | .error (.failed e) w => I.failure e w
  | .error .awaitingInput w => I.stopped w
  | .error .outOfBudget w => I.stopped w

/-- What the primitive steps of the machine have to keep. -/
structure Lawful : Prop where
  value_later : ∀ {γ δ v}, γ ≤ δ → I.value γ v → I.value δ v
  node_later : ∀ {γ δ c n}, γ ≤ δ → I.node γ c n → I.node δ c n
  child : ∀ {γ c n child}, I.node γ c n → child ∈ n.children → I.node γ c child
  number : ∀ γ number, I.value γ (.number number)
  string : ∀ γ string, I.value γ (.string string)
  list : ∀ {γ vs}, I.value γ (.list vs) ↔ ∀ v ∈ vs, I.value γ v
  lookup : ∀ {γ c ident v w}, I.node γ c (.variable ident) → I.world γ w →
    w.scopes.get? c.scope ident.name = some v → I.value γ v
  assign : ∀ {γ c n name v w}, I.node γ c n → n.bound? = some name → I.value γ v → I.world γ w →
    I.world γ { w with scopes := w.scopes.set c.scope name v }
  closure : ∀ {γ c name params body span}, I.node γ c (.function name params body span) →
    I.value γ (.function ⟨name.map Ident.name, params.map Ident.name, body, c.scope⟩)
  enter : ∀ {γ c callee arguments span f vs w}, I.node γ c (.call callee arguments span) →
    I.value γ (.function f) → (∀ v ∈ vs, I.value γ v) → f.params.length = vs.length →
    I.world γ w →
    ∃ δ, γ ≤ δ ∧
      I.world δ
        { w with scopes :=
          w.scopes.push ((Scope.empty (some f.closure)).setAll (f.params.zip vs)) } ∧
      ∀ n ∈ f.body.statements,
        I.node δ ⟨w.scopes.size, ⟨f.shownName, some span⟩ :: c.frames⟩ n
  callScope : ∀ {γ c callee arguments span vs w}, I.node γ c (.call callee arguments span) →
    (∀ v ∈ vs, I.value γ v) → I.world γ w →
    ∃ δ, γ ≤ δ ∧ I.world δ { w with scopes := w.scopes.push (Native.callScope globals vs) }
  /-- A built-in function answers. -/
  answer : ∀ {γ c callee arguments span vs w v console} (native : Native),
    I.node γ c (.call callee arguments span) → (∀ v ∈ vs, I.value γ v) → I.world γ w →
    (native.execute (Native.callScope globals vs)).run w.console = .ok v console →
    I.world γ { w with console } ∧ I.value γ v
  /-- A built-in function fails. -/
  breakdown : ∀ {γ c callee arguments span vs w fault console} (native : Native),
    I.node γ c (.call callee arguments span) → (∀ v ∈ vs, I.value γ v) → I.world γ w →
    (native.execute (Native.callScope globals vs)).run w.console = .error (.failed fault) console →
    I.failure ⟨fault, span, ⟨native.name, some span⟩ :: c.frames⟩ { w with console }
  /-- A built-in function waits for input that has not come yet. -/
  await : ∀ {γ c callee arguments span vs w console} (native : Native),
    I.node γ c (.call callee arguments span) → (∀ v ∈ vs, I.value γ v) → I.world γ w →
    (native.execute (Native.callScope globals vs)).run w.console = .error .awaitingInput console →
    I.stopped { w with console }
  fail : ∀ {γ c n site fault span w}, I.node γ c n → n.Raises site fault span →
    fault.Justified c w → I.world γ w →
    I.failure ⟨fault, span, c.frames⟩ w
  continuing : ∀ {γ c span}, I.node γ c (.continuing span) → I.signal c span
  breaking : ∀ {γ c span}, I.node γ c (.breaking span) → I.signal c span
  stray : ∀ {γ c word span w}, I.signal c span → I.world γ w →
    I.failure ⟨.outsideLoop word, span, c.frames⟩ w
  stop : ∀ {γ w}, I.world γ w → I.stopped w

variable {I}

theorem Lawful.correspondence (lawful : I.Lawful) : I.correspondence.Lawful where
  values_later later := fun ⟨same, value⟩ => ⟨same, lawful.value_later later value⟩
  nodes_later later := fun ⟨same, same', node⟩ => ⟨same, same', lawful.node_later later node⟩
  sameNode := by
    rintro γ c _ n _ ⟨rfl, rfl, node⟩
    exact .refl n fun child member => ⟨rfl, rfl, lawful.child node member⟩
  sameValue := by
    rintro γ v _ ⟨rfl, value⟩
    cases v with
    | number x => exact .number x
    | string x => exact .string x
    | list vs =>
      exact .list (List.forall₂_same.mpr fun v member => ⟨rfl, lawful.list.mp value v member⟩)
    | function f => exact .function rfl rfl
    | native native => exact .native native
  number γ number := ⟨rfl, lawful.number γ number⟩
  string γ string := ⟨rfl, lawful.string γ string⟩
  list values := by
    obtain ⟨rfl, each⟩ := forall₂_diagonal values
    exact ⟨rfl, lawful.list.mpr each⟩
  lookup := by
    rintro γ c _ ident _ w _ ⟨rfl, same, node⟩ ⟨rfl, world⟩
    cases same
    cases found : w.scopes.get? c.scope ident.name with
    | none => exact .none
    | some v => exact .some ⟨rfl, lawful.lookup node world found⟩
  assign := by
    rintro γ c _ n _ name v _ w _ ⟨rfl, rfl, node⟩ bound ⟨rfl, value⟩ ⟨rfl, world⟩
    exact ⟨rfl, lawful.assign node bound value world⟩
  closure := by
    rintro γ c _ name _ params _ body _ span _ ⟨rfl, same, node⟩
    cases same
    exact ⟨rfl, lawful.closure node⟩
  enter := by
    rintro γ c _ callee _ arguments _ span _ f _ vs _ w _ ⟨rfl, same, node⟩ ⟨same', value⟩ values
      arity ⟨rfl, world⟩
    cases same
    cases same'
    obtain ⟨rfl, each⟩ := forall₂_diagonal values
    obtain ⟨δ, later, entered, nodes⟩ := lawful.enter node value each arity world
    exact ⟨δ, later, ⟨rfl, entered⟩, .refl _ fun n member => ⟨rfl, rfl, nodes n member⟩⟩
  callScope := by
    rintro γ c _ callee _ arguments _ span _ vs _ w _ ⟨rfl, same, node⟩ values ⟨rfl, world⟩
    cases same
    obtain ⟨rfl, each⟩ := forall₂_diagonal values
    obtain ⟨δ, later, made⟩ := lawful.callScope node each world
    exact ⟨δ, later, rfl, made⟩
  converse := by
    rintro γ c _ callee _ arguments _ span _ vs _ w _ _ _ native ⟨rfl, same, node⟩ values
      ⟨rfl, world⟩
    cases same
    obtain ⟨rfl, each⟩ := forall₂_diagonal values
    -- The one run of the dialogue is both runs; it is split by the way it ends.
    unfold Eval.converse
    cases ran : (native.execute (Native.callScope globals vs)).run w.console with
    | ok v console =>
      obtain ⟨world, value⟩ := lawful.answer native node each world ran
      exact .ok le_rfl ⟨rfl, world⟩ ⟨rfl, value⟩
    | error interruption console =>
      cases interruption with
      | failed fault =>
        exact .error (.failed ⟨rfl, rfl, lawful.breakdown native node each world ran⟩)
      | awaitingInput => exact .error (.awaiting ⟨rfl, lawful.await native node each world ran⟩)
  fail := by
    rintro γ c _ n _ site fault span span' w _ ⟨rfl, rfl, node⟩ raises raises' justified ⟨rfl, world⟩
    -- A node raises a fault at one span only, so the two reports are one.
    cases raises.unique raises'
    exact ⟨rfl, rfl, lawful.fail node raises justified world⟩
  continuing := by
    rintro γ c _ span _ ⟨rfl, same, node⟩
    cases same
    exact ⟨rfl, rfl, lawful.continuing node⟩
  breaking := by
    rintro γ c _ span _ ⟨rfl, same, node⟩
    cases same
    exact ⟨rfl, rfl, lawful.breaking node⟩
  stray := by
    rintro γ c _ word span _ w _ ⟨rfl, rfl, signal⟩ ⟨rfl, world⟩
    exact ⟨rfl, rfl, lawful.stray signal world⟩
  stop := fun ⟨same, world⟩ => ⟨same, lawful.stop world⟩

/-- A result that corresponds to itself keeps the invariant. -/
theorem outcome_of_diagonal {γ : Γ} {c : Context globals}
    {result : EStateM.Result Exit World Value}
    (outcomes : I.correspondence.Outcomes γ c c I.correspondence.values result result) :
    I.Outcome γ c result := by
  cases result with
  | ok v w =>
    cases outcomes with
    | ok later worlds values => exact ⟨_, later, worlds.2, values.2⟩
  | error exit w =>
    cases outcomes with
    | error exits =>
      cases exit with
      | returned v =>
        cases exits with
        | returned later worlds values => exact ⟨_, later, worlds.2, values.2⟩
      | broke span =>
        cases exits with
        | broke later worlds signals => exact ⟨_, later, worlds.2, signals.2.2⟩
      | continued span =>
        cases exits with
        | continued later worlds signals => exact ⟨_, later, worlds.2, signals.2.2⟩
      | failed error =>
        cases exits with
        | failed failures => exact failures.2.2
      | awaitingInput =>
        cases exits with
        | awaiting stops => exact stops.2
      | outOfBudget =>
        cases exits with
        | spent stops => exact stops.2

namespace Lawful

variable {γ : Γ} {c : Context globals} {w : World}

theorem eval (lawful : I.Lawful) (budget : Nat) {node : Node} (holds : I.node γ c node)
    (world : I.world γ w) : I.Outcome γ c (eval budget c node w) :=
  outcome_of_diagonal
    (lawful.correspondence.eval budget γ c c node node ⟨rfl, rfl, holds⟩ γ le_rfl w w ⟨rfl, world⟩)

/-- The application of a value, as the last step of evaluating a call. -/
theorem apply (lawful : I.Lawful) (budget : Nat) {callee : Node} {arguments : List Node}
    {span : Span} {v : Value} {vs : List Value}
    (holds : I.node γ c (.call callee arguments span)) (function : I.value γ v)
    (values : ∀ v ∈ vs, I.value γ v) (world : I.world γ w) :
    I.Outcome γ c (Eval.apply (Primer.eval budget) c v vs span w) := by
  have applied := lawful.correspondence.apply (lawful.correspondence.eval budget)
    ⟨rfl, rfl, holds⟩ ⟨rfl, function⟩
    (List.forall₂_same.mpr fun v member => ⟨rfl, values v member⟩)
  exact outcome_of_diagonal (applied γ le_rfl w w ⟨rfl, world⟩)

theorem body (lawful : I.Lawful) (budget : Nat) {body : Body}
    (holds : ∀ statement ∈ body.statements, I.node γ c statement) (world : I.world γ w) :
    I.Outcome γ c (Eval.body (Primer.eval budget) c body w) := by
  have ran := lawful.correspondence.body (lawful.correspondence.eval budget)
    (.refl body fun statement member => ⟨rfl, rfl, holds statement member⟩)
  exact outcome_of_diagonal (ran γ le_rfl w w ⟨rfl, world⟩)

/-- A program keeps the invariant, and no signal leaves it. -/
theorem evalProgram (lawful : I.Lawful) (budget : Nat) {program : Block}
    (holds : ∀ statement ∈ program.statements, I.node γ ⟨globals, [.program]⟩ statement)
    (world : I.world γ w) : I.Outcome γ c (evalProgram budget globals program w) := by
  have ran : I.correspondence.Related γ c c I.correspondence.values _ _ :=
    lawful.correspondence.evalProgram budget
      (List.forall₂_same.mpr fun statement member => ⟨rfl, rfl, holds statement member⟩)
  exact outcome_of_diagonal (ran γ le_rfl w w ⟨rfl, world⟩)

end Lawful

end Invariant

end Primer
