import Primer.Proofs.Evaluation.Invariant

/-!
# Scopes are isolated

Evaluation writes to the scope it takes place in and to scopes it has made itself, and to no other. A
call writes only to scopes made by it, so what a function assigns is seen neither by its caller nor in
the scope it was created in.

The invariant is the same for both: every scope of an earlier world that evaluation does not own is
still there, unchanged. Owned are the scopes made since and, except for a call, the current one.
-/

namespace Primer

/-- The world an evaluation leaves, whichever way it ends. -/
def Eval.after {α : Type} (action : Eval α) (world : World) : World :=
  match action world with
  | .ok _ world => world
  | .error _ world => world

/-- What an invariant says of a world in every case holds of the world an evaluation leaves. -/
theorem Invariant.after_of_outcome {Γ : Type} [Preorder Γ] {globals : ScopeId}
    {I : Invariant Γ globals} {holds : World → Prop}
    (world : ∀ {γ w}, I.world γ w → holds w) (failure : ∀ {e w}, I.failure e w → holds w)
    (stopped : ∀ {w}, I.stopped w → holds w) {γ : Γ} {context : Context globals}
    {action : Eval Value} {before : World} (outcome : I.Outcome γ context (action before)) :
    holds (action.after before) := by
  unfold Eval.after
  generalize action before = result at outcome ⊢
  cases result with
  | ok v w =>
    obtain ⟨_, _, kept, _⟩ := outcome
    exact world kept
  | error exit w =>
    cases exit with
    | returned | broke | continued =>
      obtain ⟨_, _, kept, _⟩ := outcome
      exact world kept
    | failed => exact failure outcome
    | awaitingInput | outOfBudget => exact stopped outcome

/-- The scopes `before` that are not owned stand unchanged among the scopes of a later world. -/
structure Unaltered (before : Scopes) (owned : ScopeId → Prop) (world : World) : Prop where
  size : before.size ≤ world.scopes.size
  same : ∀ id, id < before.size → ¬owned id → world.scopes[id]? = before[id]?

namespace Unaltered

variable {before : Scopes} {owned : ScopeId → Prop} {world : World}

theorem start (world : World) (owned : ScopeId → Prop) : Unaltered world.scopes owned world :=
  ⟨Nat.le_refl _, fun _ _ _ => rfl⟩

theorem set (unaltered : Unaltered before owned world) {id : ScopeId} (own : owned id)
    (name : String) (value : Value) :
    Unaltered before owned { world with scopes := world.scopes.set id name value } := by
  refine ⟨?_, fun other old foreign => ?_⟩
  · simpa [Scopes.set] using unaltered.size
  -- The scope written to is owned, so it is not the one that is watched.
  · have distinct : id ≠ other := fun same => foreign (same ▸ own)
    simp only [Scopes.set, Array.getElem?_modify, if_neg distinct]
    exact unaltered.same other old foreign

theorem push (unaltered : Unaltered before owned world) (scope : Scope) :
    Unaltered before owned { world with scopes := world.scopes.push scope } := by
  have grown := unaltered.size
  refine ⟨?_, fun id old foreign => ?_⟩
  · simp only [Array.size_push]
    omega
  -- A new scope is put behind all others.
  · have inside : id < world.scopes.size := by omega
    rw [← unaltered.same id old foreign, Array.getElem?_push_lt inside,
      Array.getElem?_eq_getElem inside]

end Unaltered

variable {globals : ScopeId}

/-- The invariant of isolation. -/
def isolation (globals : ScopeId) (before : Scopes) (owned : ScopeId → Prop) :
    Invariant Unit globals where
  world _ := Unaltered before owned
  value _ _ := True
  node _ context _ := owned context.scope
  signal _ _ := True
  failure _ := Unaltered before owned
  stopped := Unaltered before owned

/-- Everything made since is owned, so the scope of a call is. -/
theorem isolation_lawful {before : Scopes} {owned : ScopeId → Prop}
    (fresh : ∀ id, before.size ≤ id → owned id) :
    (isolation globals before owned).Lawful where
  value_later _ value := value
  node_later _ node := node
  child node _ := node
  number _ _ := trivial
  string _ _ := trivial
  list := ⟨fun _ _ _ => trivial, fun _ => trivial⟩
  lookup _ _ _ := trivial
  assign node _ _ world := world.set node _ _
  closure _ := trivial
  enter _ _ _ _ world := ⟨(), le_rfl, world.push _, fun _ _ => fresh _ world.size⟩
  callScope _ _ world := ⟨(), le_rfl, world.push _⟩
  answer _ _ _ world _ := ⟨⟨world.size, world.same⟩, trivial⟩
  breakdown _ _ _ world _ := ⟨world.size, world.same⟩
  await _ _ _ world _ := ⟨world.size, world.same⟩
  fail _ _ _ world := world
  continuing _ := trivial
  breaking _ := trivial
  stray _ world := world
  stop world := world

theorem unaltered_of_outcome {before : Scopes} {owned : ScopeId → Prop}
    {context : Context globals} {action : Eval Value} {world : World}
    (outcome : (isolation globals before owned).Outcome () context (action world)) :
    Unaltered before owned (action.after world) :=
  Invariant.after_of_outcome id id id outcome

/-! ### The scope of a call -/

/-- A call whose arguments fit the parameters makes its scope, and the rest of it takes place there. -/
theorem apply_function_eq (inner : Evaluator globals) (context : Context globals) (f : Function)
    {arguments : List Value} (span : Span) (world : World)
    (fits : f.params.length = arguments.length) :
    let called : Context globals := ⟨world.scopes.size, ⟨f.shownName, some span⟩ :: context.frames⟩
    let scope := (Scope.empty (some f.closure)).setAll (f.params.zip arguments)
    Eval.apply inner context (.function f) arguments span world
      = Eval.finishCall called (Eval.body inner called f.body)
          { world with scopes := world.scopes.push scope } := by
  simp only [Eval.apply, Eval.checkArity, fits, Nat.lt_irrefl, if_false]
  rfl

/-- A call of a built-in function makes a scope for the arguments and talks to the console. -/
theorem apply_native_eq (inner : Evaluator globals) (context : Context globals) (native : Native)
    {arguments : List Value} (span : Span) (world : World)
    (fits : ∀ arity ∈ native.arity?, arity = arguments.length) :
    let called : Context globals := ⟨world.scopes.size, ⟨native.name, some span⟩ :: context.frames⟩
    let scope := Native.callScope globals arguments
    Eval.apply inner context (.native native) arguments span world
      = Eval.converse called span (native.execute scope)
          { world with scopes := world.scopes.push scope } := by
  cases known : native.arity? with
  | none =>
    simp only [Eval.apply, known]
    rfl
  | some arity =>
    simp only [Eval.apply, known, Eval.checkArity, fits arity known, Nat.lt_irrefl, if_false]
    rfl

theorem Eval.after_finishCall (context : Context globals) (action : Eval Value) (world : World) :
    (finishCall context action).after world = action.after world := by
  simp only [after, finishCall]
  cases action world with
  | ok => rfl
  | error exit => cases exit <;> rfl

theorem Eval.scopes_after_converse (context : Context globals) (span : Span)
    (dialogue : Dialogue Value) (world : World) :
    ((converse context span dialogue).after world).scopes = world.scopes := by
  simp only [after, converse]
  cases dialogue.run world.console with
  | ok => rfl
  | error interruption => cases interruption <;> rfl

/-- Application does not know the scope of the caller. -/
theorem apply_scope (inner : Evaluator globals) (scope other : ScopeId) (frames : List Frame)
    (callee : Value) (arguments : List Value) (span : Span) :
    Eval.apply inner ⟨scope, frames⟩ callee arguments span =
      Eval.apply inner ⟨other, frames⟩ callee arguments span := by
  cases callee <;> rfl

section

variable {before : Scopes} {owned : ScopeId → Prop} {world : World}

theorem eval_unaltered (fresh : ∀ id, before.size ≤ id → owned id) (budget : Nat)
    {context : Context globals} (own : owned context.scope) (node : Node)
    (unaltered : Unaltered before owned world) :
    Unaltered before owned ((eval budget context node).after world) := by
  have holds : (isolation globals before owned).node () context node := own
  exact unaltered_of_outcome ((isolation_lawful fresh).eval budget holds unaltered)

theorem apply_unaltered (fresh : ∀ id, before.size ≤ id → owned id) (budget : Nat)
    (context : Context globals) (callee : Value) (arguments : List Value) (span : Span)
    (unaltered : Unaltered before owned world) :
    Unaltered before owned
      ((Eval.apply (eval budget) context callee arguments span).after world) := by
  -- The caller may as well have been in a scope made since.
  rw [apply_scope (eval budget) context.scope before.size]
  have holds : (isolation globals before owned).node ()
      ⟨before.size, context.frames⟩ (.call default [] span) := fresh _ (Nat.le_refl _)
  exact unaltered_of_outcome
    ((isolation_lawful fresh).apply budget holds trivial (fun _ _ => trivial) unaltered)

end

/-- Whichever way it ends, an evaluation leaves all scopes but its own as they were, and a call leaves
all scopes as they were. -/
theorem scopes_isolated (budget : Nat) (context : Context globals) (world : World)
    (id : ScopeId) (scope : Scope) (present : world.scopes[id]? = some scope) :
    (∀ node, id ≠ context.scope →
      ((eval budget context node).after world).scopes[id]? = some scope) ∧
    (∀ callee arguments span,
      ((Eval.apply (eval budget) context callee arguments span).after world).scopes[id]? =
        some scope) := by
  obtain ⟨old, -⟩ := Array.getElem?_eq_some_iff.mp present
  refine ⟨fun node foreign => ?_, fun callee arguments span => ?_⟩
  -- An evaluation owns its scope and the scopes it makes.
  · let owned (other : ScopeId) : Prop := other = context.scope ∨ world.scopes.size ≤ other
    have unaltered : Unaltered world.scopes owned ((eval budget context node).after world) :=
      eval_unaltered (fun _ => .inr) budget (.inl rfl) node (.start world owned)
    rw [unaltered.same id old (not_or.mpr ⟨foreign, Nat.not_le.mpr old⟩), present]
  -- A call owns the scopes it makes and no other.
  · let owned (other : ScopeId) : Prop := world.scopes.size ≤ other
    have unaltered : Unaltered world.scopes owned _ :=
      apply_unaltered (fun _ fresh => fresh) budget context callee arguments span
        (.start world owned)
    rw [unaltered.same id old (Nat.not_le.mpr old), present]

/-- A function that assigns `x` in a scope below one that binds `x`: evaluated there or called, it
leaves the outer binding alone, and the call binds `x` in a scope of its own. -/
theorem outer_binding_kept :
    let one : Value := .number (.int 1)
    let outer : Scope := ⟨[("x", one)], none⟩
    let world : World := ⟨#[outer, .empty (some 0)], .ofInput [] .none true⟩
    let context : Context := ⟨1, [.program]⟩
    let assignment : Node := .assign ⟨"x", default⟩ (.number (.int 2) default) default
    let function : Value := .function ⟨none, [], .inline assignment, 0⟩
    let called := (Eval.apply (eval 2) context function [] default).after world
    world.scopes[0]? = some outer ∧ 0 ≠ context.scope ∧
      ((eval 2 context assignment).after world).scopes[0]? = some outer ∧
      called.scopes[0]? = some outer ∧
      called.scopes[2]? = some ⟨[("x", .number (.int 2))], some 0⟩ := by
  intro one outer world context assignment function called
  have kept := scopes_isolated 2 context world 0 outer rfl
  exact ⟨rfl, by decide, kept.1 assignment (by decide), kept.2 function [] default, rfl⟩

end Primer
