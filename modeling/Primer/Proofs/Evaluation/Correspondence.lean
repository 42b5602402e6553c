import Primer.Machine.Eval
import Primer.Proofs.Program.Occurrence

/-!
# Runs that correspond

Two evaluations are compared step by step. A `Correspondence` says which worlds, values and nodes
correspond, which signals and failures may leave two corresponding evaluations, and `Lawful` says what
each primitive step of the machine has to keep. The main result of the next module is that the whole
evaluator then keeps it. What corresponds may depend on a stage `γ` that only ever grows, for instance
the number of scopes made so far.

The shapes below spell out that corresponding nodes and values are built alike, so that both
evaluations take the same branch everywhere.
-/

namespace Primer

/-- Bodies built alike from related statements. -/
inductive SameBody (related : Node → Node → Prop) : Body → Body → Prop
  | inline {first second : Node} (statement : related first second) :
      SameBody related (.inline first) (.inline second)
  | block {first second : List Node} {span span' : Span}
      (statements : List.Forall₂ related first second) :
      SameBody related (.block first span) (.block second span')

/-- Branches built alike from related conditions and bodies. -/
inductive SameBranches (related : Node → Node → Prop) : Branches → Branches → Prop
  | none : SameBranches related .none .none
  | otherwise {body body' : Body} (last : SameBody related body body') :
      SameBranches related (.otherwise body) (.otherwise body')
  | elif {condition condition' : Node} {body body' : Body} {others others' : Branches}
      (test : related condition condition') (first : SameBody related body body')
      (rest : SameBranches related others others') :
      SameBranches related (.elif condition body others) (.elif condition' body' others')

/-- Nodes built alike from related children. Nothing is said about spans and about the bodies of
functions, which are evaluated in calls of their own. -/
inductive SameNode (related : Node → Node → Prop) : Node → Node → Prop
  | number (value : Number) (span span' : Span) :
      SameNode related (.number value span) (.number value span')
  | string (value : String) (span span' : Span) :
      SameNode related (.string value span) (.string value span')
  | list {elements elements' : List Node} {span span' : Span}
      (children : List.Forall₂ related elements elements') :
      SameNode related (.list elements span) (.list elements' span')
  | access {ident ident' : Ident} (name : ident.name = ident'.name) :
      SameNode related (.variable ident) (.variable ident')
  | assign {target target' : Ident} {value value' : Node} {span span' : Span}
      (name : target.name = target'.name) (child : related value value') :
      SameNode related (.assign target value span) (.assign target' value' span')
  | binary {left left' right right' : Node} {span span' : Span} (operator : Token)
      (first : related left left') (second : related right right') :
      SameNode related (.binary left operator right span) (.binary left' operator right' span')
  | unary {operand operand' : Node} {span span' : Span} (operator : Token)
      (child : related operand operand') :
      SameNode related (.unary operator operand span) (.unary operator operand' span')
  | conditional {condition condition' : Node} {body body' : Body} {others others' : Branches}
      {span span' : Span}
      (branches : SameBranches related (.elif condition body others)
        (.elif condition' body' others')) :
      SameNode related (.conditional condition body others span)
        (.conditional condition' body' others' span')
  | forLoop {counter counter' : Ident} {first first' limit limit' : Node}
      {step step' : Option Node} {body body' : Body} {span span' : Span}
      (name : counter.name = counter'.name) (start : related first first')
      (stop : related limit limit') (stride : Option.Rel related step step')
      (loop : SameBody related body body') :
      SameNode related (.forLoop counter first limit step body span)
        (.forLoop counter' first' limit' step' body' span')
  | whileLoop {condition condition' : Node} {body body' : Body} {span span' : Span}
      (test : related condition condition') (loop : SameBody related body body') :
      SameNode related (.whileLoop condition body span) (.whileLoop condition' body' span')
  | repeatLoop {count count' : Node} {body body' : Body} {span span' : Span}
      (times : related count count') (loop : SameBody related body body') :
      SameNode related (.repeatLoop count body span) (.repeatLoop count' body' span')
  | function {name name' : Option Ident} {params params' : List Ident} {body body' : Body}
      {span span' : Span} (names : name.map Ident.name = name'.map Ident.name) :
      SameNode related (.function name params body span) (.function name' params' body' span')
  | call {callee callee' : Node} {arguments arguments' : List Node} {span span' : Span}
      (function : related callee callee')
      (values : List.Forall₂ related arguments arguments') :
      SameNode related (.call callee arguments span) (.call callee' arguments' span')
  | returning {value value' : Option Node} {span span' : Span}
      (result : Option.Rel related value value') :
      SameNode related (.returning value span) (.returning value' span')
  | continuing (span span' : Span) : SameNode related (.continuing span) (.continuing span')
  | breaking (span span' : Span) : SameNode related (.breaking span) (.breaking span')

/-- Values built alike from related elements. Functions have the same name and parameters. -/
inductive SameValue (related : Value → Value → Prop) : Value → Value → Prop
  | number (value : Number) : SameValue related (.number value) (.number value)
  | string (value : String) : SameValue related (.string value) (.string value)
  | list {elements elements' : List Value} (children : List.Forall₂ related elements elements') :
      SameValue related (.list elements) (.list elements')
  | function {value value' : Function} (name : value.name = value'.name)
      (params : value.params = value'.params) :
      SameValue related (.function value) (.function value')
  | native (value : Native) : SameValue related (.native value) (.native value)

/-- The place in a node where it fails: only the header of a counting loop has several. -/
inductive Site where
  | itself | first | limit | step

/-- The failures a node can raise in the call it is evaluated in, with their places and spans. -/
inductive Node.Raises : Node → Site → RuntimeFault → Span → Prop
  | undefined (ident : Ident) :
      Raises (.variable ident) .itself (.notDefined ident.name) ident.span
  | binary (left right : Node) (operator : Token) (span : Span) (fault : OperationFault) :
      Raises (.binary left operator right span) .itself (.operation fault)
        (Eval.operationSpan fault left right)
  | unary (operand : Node) (operator : Token) (span : Span) (fault : OperationFault) :
      Raises (.unary operator operand span) .itself (.operation fault) span
  | first (counter : Ident) (first limit : Node) (step : Option Node) (body : Body) (span : Span) :
      Raises (.forLoop counter first limit step body span) .first (.operation .illegal) first.span
  | limit (counter : Ident) (first limit : Node) (step : Option Node) (body : Body) (span : Span) :
      Raises (.forLoop counter first limit step body span) .limit (.operation .illegal) limit.span
  | step (counter : Ident) (first limit step : Node) (body : Body) (span : Span) :
      Raises (.forLoop counter first limit (some step) body span) .step (.operation .illegal)
        step.span
  | count (count : Node) (body : Body) (span : Span) :
      Raises (.repeatLoop count body span) .itself (.operation .illegal) count.span
  | tooManyArgs (callee : Node) (arguments : List Node) (span : Span) (count : Nat)
      (function : String) :
      Raises (.call callee arguments span) .itself (.tooManyArgs count function) span
  | tooFewArgs (callee : Node) (arguments : List Node) (span : Span) (count : Nat)
      (function : String) :
      Raises (.call callee arguments span) .itself (.tooFewArgs count function) span
  | notCallable (callee : Node) (arguments : List Node) (span : Span) :
      Raises (.call callee arguments span) .itself (.operation .illegal) span

theorem Node.Raises.unique {n : Node} {site : Site} {fault : RuntimeFault} {span span' : Span}
    (raises : n.Raises site fault span) (raises' : n.Raises site fault span') : span = span' := by
  cases raises <;> cases raises' <;> rfl

/-- A name that is reported as not defined has no value in sight. -/
def RuntimeFault.Justified {globals : ScopeId} (fault : RuntimeFault) (c : Context globals)
    (w : World) : Prop :=
  ∀ name, fault = .notDefined name → w.scopes.get? c.scope name = none

/-- What two evaluations have in common, by the stage they have reached. Each has a scope of programs of
its own. -/
structure Correspondence (Γ : Type) (globals globals' : ScopeId) where
  worlds : Γ → World → World → Prop
  values : Γ → Value → Value → Prop
  /-- Nodes that may be evaluated against each other, each in its own context. -/
  nodes : Γ → Context globals → Context globals' → Node → Node → Prop
  /-- The spans of a `break` or `continue` on its way out. -/
  signals : Context globals → Context globals' → Span → Span → Prop
  /-- Failures, with the worlds they leave. -/
  failures : RuntimeError → RuntimeError → World → World → Prop
  /-- The worlds of evaluations cut short by their budget or for want of input. -/
  stops : World → World → Prop

namespace Correspondence

variable {Γ : Type} [Preorder Γ] {globals globals' : ScopeId}
  (L : Correspondence Γ globals globals')

/-- Corresponding ways out of two evaluations that started at stage `γ`. -/
inductive Exits (γ : Γ) (c : Context globals) (c' : Context globals') :
    Exit → Exit → World → World → Prop
  | returned {δ : Γ} {v v' : Value} {w w' : World} (later : γ ≤ δ) (worlds : L.worlds δ w w')
      (values : L.values δ v v') : Exits γ c c' (.returned v) (.returned v') w w'
  | broke {δ : Γ} {s s' : Span} {w w' : World} (later : γ ≤ δ) (worlds : L.worlds δ w w')
      (signals : L.signals c c' s s') : Exits γ c c' (.broke s) (.broke s') w w'
  | continued {δ : Γ} {s s' : Span} {w w' : World} (later : γ ≤ δ) (worlds : L.worlds δ w w')
      (signals : L.signals c c' s s') : Exits γ c c' (.continued s) (.continued s') w w'
  | failed {e e' : RuntimeError} {w w' : World} (failures : L.failures e e' w w') :
      Exits γ c c' (.failed e) (.failed e') w w'
  | awaiting {w w' : World} (stops : L.stops w w') :
      Exits γ c c' .awaitingInput .awaitingInput w w'
  | spent {w w' : World} (stops : L.stops w w') : Exits γ c c' .outOfBudget .outOfBudget w w'

/-- Corresponding results of two evaluations that started at stage `γ`. -/
inductive Outcomes (γ : Γ) (c : Context globals) (c' : Context globals') {α : Type}
    (post : Γ → α → α → Prop) :
    EStateM.Result Exit World α → EStateM.Result Exit World α → Prop
  | ok {δ : Γ} {a a' : α} {w w' : World} (later : γ ≤ δ) (worlds : L.worlds δ w w')
      (results : post δ a a') : Outcomes γ c c' post (.ok a w) (.ok a' w')
  | error {x x' : Exit} {w w' : World} (exits : L.Exits γ c c' x x' w w') :
      Outcomes γ c c' post (.error x w) (.error x' w')

/-- Two evaluations correspond from stage `γ` on: from corresponding worlds they come to
corresponding results. -/
def Related (γ : Γ) (c : Context globals) (c' : Context globals') {α : Type}
    (post : Γ → α → α → Prop) (x x' : Eval α) : Prop :=
  ∀ δ, γ ≤ δ → ∀ w w', L.worlds δ w w' → L.Outcomes δ c c' post (x w) (x' w')

/-- Two evaluators correspond on all corresponding nodes. -/
def Evaluators (inner : Evaluator globals) (inner' : Evaluator globals') : Prop :=
  ∀ γ c c' node node', L.nodes γ c c' node node' →
    L.Related γ c c' L.values (inner c node) (inner' c' node')

/-- What the primitive steps of the machine have to keep. -/
structure Lawful : Prop where
  values_later : ∀ {γ δ v v'}, γ ≤ δ → L.values γ v v' → L.values δ v v'
  nodes_later : ∀ {γ δ c c' n n'}, γ ≤ δ → L.nodes γ c c' n n' → L.nodes δ c c' n n'
  sameNode : ∀ {γ c c' n n'}, L.nodes γ c c' n n' → SameNode (L.nodes γ c c') n n'
  sameValue : ∀ {γ v v'}, L.values γ v v' → SameValue (L.values γ) v v'
  number : ∀ γ number, L.values γ (.number number) (.number number)
  string : ∀ γ string, L.values γ (.string string) (.string string)
  list : ∀ {γ vs vs'}, List.Forall₂ (L.values γ) vs vs' → L.values γ (.list vs) (.list vs')
  /-- A name is looked up. -/
  lookup : ∀ {γ c c' ident ident' w w'}, L.nodes γ c c' (.variable ident) (.variable ident') →
    L.worlds γ w w' →
    Option.Rel (L.values γ) (w.scopes.get? c.scope ident.name) (w'.scopes.get? c'.scope ident'.name)
  /-- A name is bound. -/
  assign : ∀ {γ c c' n n' name v v' w w'}, L.nodes γ c c' n n' → n.bound? = some name →
    L.values γ v v' → L.worlds γ w w' →
    L.worlds γ { w with scopes := w.scopes.set c.scope name v }
      { w' with scopes := w'.scopes.set c'.scope name v' }
  /-- A function is made. -/
  closure : ∀ {γ c c' name name' params params' body body' span span'},
    L.nodes γ c c' (.function name params body span) (.function name' params' body' span') →
    L.values γ (.function ⟨name.map Ident.name, params.map Ident.name, body, c.scope⟩)
      (.function ⟨name'.map Ident.name, params'.map Ident.name, body', c'.scope⟩)
  /-- The scope of a call is made, in which the body is evaluated. -/
  enter : ∀ {γ c c' callee callee' arguments arguments' span span' f f' vs vs' w w'},
    L.nodes γ c c' (.call callee arguments span) (.call callee' arguments' span') →
    L.values γ (.function f) (.function f') → List.Forall₂ (L.values γ) vs vs' →
    f.params.length = vs.length → L.worlds γ w w' →
    ∃ δ, γ ≤ δ ∧
      L.worlds δ
        { w with scopes :=
          w.scopes.push ((Scope.empty (some f.closure)).setAll (f.params.zip vs)) }
        { w' with scopes :=
          w'.scopes.push ((Scope.empty (some f'.closure)).setAll (f'.params.zip vs')) } ∧
      SameBody (L.nodes δ ⟨w.scopes.size, ⟨f.shownName, some span⟩ :: c.frames⟩
        ⟨w'.scopes.size, ⟨f'.shownName, some span'⟩ :: c'.frames⟩) f.body f'.body
  /-- The scope of a call of a built-in function is made, inside that of programs. -/
  callScope : ∀ {γ c c' callee callee' arguments arguments' span span' vs vs' w w'},
    L.nodes γ c c' (.call callee arguments span) (.call callee' arguments' span') →
    List.Forall₂ (L.values γ) vs vs' → L.worlds γ w w' →
    ∃ δ, γ ≤ δ ∧
      L.worlds δ { w with scopes := w.scopes.push (Native.callScope globals vs) }
        { w' with scopes := w'.scopes.push (Native.callScope globals' vs') }
  /-- A built-in function talks to the console. -/
  converse : ∀ {γ c c' callee callee' arguments arguments' span span' vs vs' w w'}
    (scope scope' : ScopeId) (native : Native),
    L.nodes γ c c' (.call callee arguments span) (.call callee' arguments' span') →
    List.Forall₂ (L.values γ) vs vs' → L.worlds γ w w' →
    L.Outcomes γ c c' L.values
      (Eval.converse (⟨scope, ⟨native.name, some span⟩ :: c.frames⟩ : Context globals) span
        (native.execute (Native.callScope globals vs)) w)
      (Eval.converse (⟨scope', ⟨native.name, some span'⟩ :: c'.frames⟩ : Context globals') span'
        (native.execute (Native.callScope globals' vs')) w')
  /-- A node fails. -/
  fail : ∀ {γ c c' n n' site fault span span' w w'}, L.nodes γ c c' n n' →
    n.Raises site fault span → n'.Raises site fault span' → fault.Justified c w →
    L.worlds γ w w' →
    L.failures ⟨fault, span, c.frames⟩ ⟨fault, span', c'.frames⟩ w w'
  continuing : ∀ {γ c c' span span'}, L.nodes γ c c' (.continuing span) (.continuing span') →
    L.signals c c' span span'
  breaking : ∀ {γ c c' span span'}, L.nodes γ c c' (.breaking span) (.breaking span') →
    L.signals c c' span span'
  /-- A signal has no loop to end. -/
  stray : ∀ {γ c c' word span span' w w'}, L.signals c c' span span' → L.worlds γ w w' →
    L.failures ⟨.outsideLoop word, span, c.frames⟩ ⟨.outsideLoop word, span', c'.frames⟩ w w'
  /-- The budget is spent. -/
  stop : ∀ {γ w w'}, L.worlds γ w w' → L.stops w w'

end Correspondence

end Primer
