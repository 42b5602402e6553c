import Primer.Proofs.Evaluation.Operators

/-!
# Evaluation keeps every lawful correspondence

The equations of the language are functions of an `inner` evaluator. Each lemma below says that one of
them takes corresponding inner evaluators to corresponding evaluations; `Lawful.eval` ties the knot by
induction on the budget.
-/

namespace Primer

namespace Correspondence

variable {Γ : Type} [Preorder Γ] {globals globals' : ScopeId}
  {L : Correspondence Γ globals globals'} {γ δ : Γ} {c : Context globals} {c' : Context globals'}
variable {α β : Type} {post : Γ → α → α → Prop} {post' : Γ → β → β → Prop}

theorem Exits.earlier {x x' : Exit} {w w' : World} (later : γ ≤ δ)
    (exits : L.Exits δ c c' x x' w w') : L.Exits γ c c' x x' w w' := by
  cases exits with
  | returned further worlds values => exact .returned (later.trans further) worlds values
  | broke further worlds signals => exact .broke (later.trans further) worlds signals
  | continued further worlds signals => exact .continued (later.trans further) worlds signals
  | failed failures => exact .failed failures
  | awaiting stops => exact .awaiting stops
  | spent stops => exact .spent stops

theorem Outcomes.earlier {r r' : EStateM.Result Exit World α} (later : γ ≤ δ)
    (outcomes : L.Outcomes δ c c' post r r') : L.Outcomes γ c c' post r r' := by
  cases outcomes with
  | ok further worlds results => exact .ok (later.trans further) worlds results
  | error exits => exact .error (exits.earlier later)

namespace Related

theorem later {x x' : Eval α} (related : L.Related γ c c' post x x') (later : γ ≤ δ) :
    L.Related δ c c' post x x' :=
  fun _ further w w' worlds => related _ (later.trans further) w w' worlds

theorem pure {a a' : α} (results : ∀ δ, γ ≤ δ → post δ a a') :
    L.Related γ c c' post (Pure.pure a) (Pure.pure a') :=
  fun δ later _ _ worlds => .ok le_rfl worlds (results δ later)

theorem throw {x x' : Exit}
    (exits : ∀ δ, γ ≤ δ → ∀ w w', L.worlds δ w w' → L.Exits δ c c' x x' w w') :
    L.Related γ c c' post (throw x : Eval α) (throw x') :=
  fun δ later w w' worlds => .error (exits δ later w w' worlds)

theorem bind {x x' : Eval α} {f f' : α → Eval β} (related : L.Related γ c c' post x x')
    (next : ∀ δ, γ ≤ δ → ∀ a a', post δ a a' → L.Related δ c c' post' (f a) (f' a')) :
    L.Related γ c c' post' (x >>= f) (x' >>= f') := by
  intro δ later w w' worlds
  have outcomes := related δ later w w' worlds
  simp only [Bind.bind, EStateM.bind]
  -- The two sides end in the same way, so the mixed cases do not arise.
  cases first : x w with
  | ok a w₁ =>
    cases second : x' w' with
    | ok a' w₁' =>
      rw [first, second] at outcomes
      cases outcomes with
      | ok further worlds₁ results =>
        have rest := next _ (later.trans further) a a' results _ le_rfl w₁ w₁' worlds₁
        exact rest.earlier further
    | error => rw [first, second] at outcomes; cases outcomes
  | error =>
    cases second : x' w' with
    | ok => rw [first, second] at outcomes; cases outcomes
    | error =>
      rw [first, second] at outcomes
      cases outcomes with
      | error exits => exact .error exits

theorem discard {x x' : Eval α} (related : L.Related γ c c' post x x') :
    L.Related γ c c' (fun _ _ _ => True) (Functor.discard x) (Functor.discard x') :=
  related.bind fun _ _ _ _ _ => .pure fun _ _ => trivial

/-- A failure of a node in its own call. -/
theorem fail (lawful : L.Lawful) {n n' : Node} {site : Site} {fault : RuntimeFault}
    {span span' : Span} (nodes : L.nodes γ c c' n n') (raises : n.Raises site fault span)
    (raises' : n'.Raises site fault span') (defined : ∀ name, fault ≠ .notDefined name) :
    L.Related γ c c' post (Eval.fail c fault span : Eval α) (Eval.fail c' fault span') :=
  throw fun _ later _ _ worlds =>
    .failed (lawful.fail (lawful.nodes_later later nodes) raises raises'
      (fun name same => absurd same (defined name)) worlds)

theorem assign (lawful : L.Lawful) {n n' : Node} {name : String} {v v' : Value}
    (nodes : L.nodes γ c c' n n') (bound : n.bound? = some name) (values : L.values γ v v') :
    L.Related γ c c' (fun _ _ _ => True) (Eval.assign c name v) (Eval.assign c' name v') :=
  fun _ later _ _ worlds =>
    .ok le_rfl (lawful.assign (lawful.nodes_later later nodes) bound
      (lawful.values_later later values) worlds) trivial

end Related

/-- Corresponding ends of one turn of a loop. -/
inductive SameTurn (L : Correspondence Γ globals globals') (γ : Γ) : Eval.Turn → Eval.Turn → Prop
  | yielded {v v' : Value} (values : L.values γ v v') : SameTurn L γ (.yielded v) (.yielded v')
  | skipped : SameTurn L γ .skipped .skipped
  | stopped : SameTurn L γ .stopped .stopped

namespace Related

theorem turn {x x' : Eval Value} (related : L.Related γ c c' L.values x x') :
    L.Related γ c c' (SameTurn L) (Eval.turn x) (Eval.turn x') := by
  intro δ later w w' worlds
  have outcomes := related δ later w w' worlds
  unfold Eval.turn
  generalize x w = result at outcomes ⊢
  generalize x' w' = result' at outcomes ⊢
  cases outcomes with
  | ok further worlds values => exact .ok further worlds (.yielded values)
  | error exits =>
    cases exits with
    | returned further worlds values => exact .error (.returned further worlds values)
    -- A signal ends here, and with it the need to know where it came from.
    | broke further worlds _ => exact .ok further worlds .stopped
    | continued further worlds _ => exact .ok further worlds .skipped
    | failed failures => exact .error (.failed failures)
    | awaiting stops => exact .error (.awaiting stops)
    | spent stops => exact .error (.spent stops)

/-- A call ends every signal of its body. -/
theorem finishCall (lawful : L.Lawful) {called : Context globals} {called' : Context globals'}
    {x x' : Eval Value}
    (related : L.Related γ called called' L.values x x') :
    L.Related γ c c' L.values (Eval.finishCall called x) (Eval.finishCall called' x') := by
  intro δ later w w' worlds
  have outcomes := related δ later w w' worlds
  unfold Eval.finishCall
  generalize x w = result at outcomes ⊢
  generalize x' w' = result' at outcomes ⊢
  cases outcomes with
  | ok further worlds values => exact .ok further worlds values
  | error exits =>
    cases exits with
    | returned further worlds values => exact .ok further worlds values
    -- There is no loop left to end, so the signal is reported in the frame of the callee.
    | broke _ worlds signals => exact .error (.failed (lawful.stray signals worlds))
    | continued _ worlds signals => exact .error (.failed (lawful.stray signals worlds))
    | failed failures => exact .error (.failed failures)
    | awaiting stops => exact .error (.awaiting stops)
    | spent stops => exact .error (.spent stops)

end Related

namespace Lawful

variable {inner : Evaluator globals} {inner' : Evaluator globals'}

theorem null (lawful : L.Lawful) (γ : Γ) : L.values γ .null .null :=
  lawful.number γ _

theorem nodes_all_later (lawful : L.Lawful) {ns ns' : List Node} (later : γ ≤ δ)
    (nodes : List.Forall₂ (L.nodes γ c c') ns ns') : List.Forall₂ (L.nodes δ c c') ns ns' :=
  nodes.imp fun _ _ => lawful.nodes_later later

theorem values_all_later (lawful : L.Lawful) {vs vs' : List Value} (later : γ ≤ δ)
    (values : List.Forall₂ (L.values γ) vs vs') : List.Forall₂ (L.values δ) vs vs' :=
  values.imp fun _ _ => lawful.values_later later

theorem body_later (lawful : L.Lawful) {body body' : Body} (later : γ ≤ δ)
    (same : SameBody (L.nodes γ c c') body body') : SameBody (L.nodes δ c c') body body' := by
  cases same with
  | inline statement => exact .inline (lawful.nodes_later later statement)
  | block statements => exact .block (lawful.nodes_all_later later statements)

theorem lookup_related (lawful : L.Lawful) {ident ident' : Ident}
    (nodes : L.nodes γ c c' (.variable ident) (.variable ident'))
    (name : ident.name = ident'.name) :
    L.Related γ c c' L.values (Eval.lookup c ident) (Eval.lookup c' ident') := by
  intro δ later w w' worlds
  have found := lawful.lookup (lawful.nodes_later later nodes) worlds
  simp only [Eval.lookup, bind, EStateM.bind, get, getThe, MonadStateOf.get, EStateM.get]
  generalize looked : w.scopes.get? c.scope ident.name = v at found ⊢
  generalize w'.scopes.get? c'.scope ident'.name = v' at found ⊢
  cases found with
  | some values => exact .ok le_rfl worlds values
  | none =>
    -- The two names agree, so the two failures carry the same one.
    have raises : Node.Raises (.variable ident) .itself (.notDefined ident'.name) ident.span :=
      name ▸ .undefined ident
    have justified : (RuntimeFault.notDefined ident'.name).Justified c w := by
      intro other same
      cases same
      rw [← name, looked]
    rw [name]
    exact .error (.failed (lawful.fail (lawful.nodes_later later nodes) raises
      (.undefined ident') justified worlds))

theorem all (lawful : L.Lawful) (evaluators : L.Evaluators inner inner') {ns ns' : List Node}
    (nodes : List.Forall₂ (L.nodes γ c c') ns ns') :
    L.Related γ c c' (fun δ => List.Forall₂ (L.values δ)) (Eval.all inner c ns)
      (Eval.all inner' c' ns') := by
  induction nodes with
  | nil => exact .pure fun _ _ => .nil
  | cons first _ ih =>
    refine (evaluators _ _ _ _ _ first).bind fun δ later v v' head => ?_
    refine (ih.later later).bind fun ε further vs vs' tail => ?_
    -- What was found first has to hold still at the stage where the last is found.
    refine .pure fun _ last => .cons ?_ (lawful.values_all_later last tail)
    exact lawful.values_later (further.trans last) head

theorem sequence (lawful : L.Lawful) (evaluators : L.Evaluators inner inner')
    {last last' : Value} {ns ns' : List Node} (values : L.values γ last last')
    (nodes : List.Forall₂ (L.nodes γ c c') ns ns') :
    L.Related γ c c' L.values (Eval.sequence inner c last ns)
      (Eval.sequence inner' c' last' ns') := by
  -- The stage and the value so far change with each statement, so both are general here.
  induction ns generalizing γ ns' last last' with
  | nil =>
    cases nodes
    exact .pure fun _ later => lawful.values_later later values
  | cons statement rest ih =>
    cases nodes with
    | cons first others =>
      refine (evaluators _ _ _ _ _ first).bind fun δ later v v' head => ?_
      exact ih head (lawful.nodes_all_later later others)

theorem body (lawful : L.Lawful) (evaluators : L.Evaluators inner inner') {body body' : Body}
    (same : SameBody (L.nodes γ c c') body body') :
    L.Related γ c c' L.values (Eval.body inner c body) (Eval.body inner' c' body') := by
  cases same with
  | inline statement => exact evaluators _ _ _ _ _ statement
  | block statements =>
    have ran := (lawful.sequence evaluators (lawful.null γ) statements).discard
    exact ran.bind fun _ _ _ _ _ => .pure fun δ _ => lawful.null δ

theorem binary_related (lawful : L.Lawful) (evaluators : L.Evaluators inner inner')
    {left left' right right' : Node} {operator : Token} {span span' : Span}
    (nodes : L.nodes γ c c' (.binary left operator right span)
      (.binary left' operator right' span'))
    (first : L.nodes γ c c' left left') (second : L.nodes γ c c' right right') :
    L.Related γ c c' L.values (Eval.binary inner c left operator right)
      (Eval.binary inner' c' left' operator right') := by
  refine (evaluators _ _ _ _ _ first).bind fun δ later a a' operand => ?_
  refine (evaluators _ _ _ _ _ (lawful.nodes_later later second)).bind
    fun ε further b b' operand' => ?_
  have results := lawful.binary operator (lawful.values_later further operand) operand'
  generalize a.binary operator b = result at results ⊢
  generalize a'.binary operator b' = result' at results ⊢
  cases results with
  | ok values => exact .pure fun _ last => lawful.values_later last values
  | error fault =>
    exact .fail lawful (lawful.nodes_later (later.trans further) nodes) (.binary ..) (.binary ..)
      (by simp)

theorem unary_related (lawful : L.Lawful) (evaluators : L.Evaluators inner inner')
    {operand operand' : Node} {operator : Token} {span span' : Span}
    (nodes : L.nodes γ c c' (.unary operator operand span) (.unary operator operand' span'))
    (child : L.nodes γ c c' operand operand') :
    L.Related γ c c' L.values (Eval.unary inner c operator operand span)
      (Eval.unary inner' c' operator operand' span') := by
  refine (evaluators _ _ _ _ _ child).bind fun δ later v v' values => ?_
  have results := lawful.unary operator values
  generalize v.unary operator = result at results ⊢
  generalize v'.unary operator = result' at results ⊢
  cases results with
  | ok values => exact .pure fun _ last => lawful.values_later last values
  | error fault =>
    exact .fail lawful (lawful.nodes_later later nodes) (.unary ..) (.unary ..) (by simp)

theorem branches (lawful : L.Lawful) (evaluators : L.Evaluators inner inner')
    {branches branches' : Branches} (same : SameBranches (L.nodes γ c c') branches branches') :
    L.Related γ c c' L.values (Eval.branches inner c branches)
      (Eval.branches inner' c' branches') := by
  induction same with
  | none => exact .pure fun δ _ => lawful.null δ
  | otherwise last => exact lawful.body evaluators last
  | elif test first _ ih =>
    refine (evaluators _ _ _ _ _ test).bind fun δ later v v' values => ?_
    rw [lawful.isTrue_eq values]
    cases v'.isTrue with
    | true => exact lawful.body evaluators (lawful.body_later later first)
    | false => exact ih.later later

/-- A number that a loop needs in its header. -/
theorem number_related (lawful : L.Lawful) (evaluators : L.Evaluators inner inner')
    {loop loop' header header' : Node} {site : Site} (nodes : L.nodes γ c c' loop loop')
    (child : L.nodes γ c c' header header')
    (raises : loop.Raises site (.operation .illegal) header.span)
    (raises' : loop'.Raises site (.operation .illegal) header'.span) :
    L.Related γ c c' (fun _ x x' => x = x') (Eval.number inner c header)
      (Eval.number inner' c' header') := by
  refine (evaluators _ _ _ _ _ child).bind fun δ later v v' values => ?_
  cases lawful.sameValue values with
  | number x => exact .pure fun _ _ => rfl
  | _ => exact .fail lawful (lawful.nodes_later later nodes) raises raises' (by simp)

theorem loopValue (lawful : L.Lawful) {body body' : Body} {yielded yielded' : List Value}
    (same : SameBody (L.nodes γ c c') body body')
    (values : List.Forall₂ (L.values γ) yielded yielded') :
    L.values γ (Eval.loopValue body yielded) (Eval.loopValue body' yielded') := by
  cases same with
  | inline => exact lawful.list (List.rel_reverse values)
  | block => exact lawful.null γ

theorem whileTurns (lawful : L.Lawful) (evaluators : L.Evaluators inner inner')
    {condition condition' : Node} {loop loop' : Body} (budget : Nat)
    {yielded yielded' : List Value} (test : L.nodes γ c c' condition condition')
    (same : SameBody (L.nodes γ c c') loop loop')
    (values : List.Forall₂ (L.values γ) yielded yielded') :
    L.Related γ c c' L.values (Eval.whileTurns inner c condition loop budget yielded)
      (Eval.whileTurns inner' c' condition' loop' budget yielded') := by
  -- What carries the loop is that the values yielded so far correspond. The stage moves on with
  -- the condition and once more with the body.
  induction budget generalizing γ yielded yielded' with
  | zero => exact .throw fun _ _ _ _ worlds => .spent (lawful.stop worlds)
  | succ budget ih =>
    refine (evaluators _ _ _ _ _ test).bind fun δ later v v' truth => ?_
    have earlier := lawful.values_all_later later values
    have body := lawful.body_later later same
    rw [lawful.isTrue_eq truth]
    cases v'.isTrue with
    | false =>
      exact .pure fun _ last =>
        lawful.loopValue (lawful.body_later last body) (lawful.values_all_later last earlier)
    | true =>
      refine (lawful.body evaluators body).turn.bind fun ε further turn turn' ended => ?_
      have test := lawful.nodes_later (later.trans further) test
      have body := lawful.body_later further body
      have earlier := lawful.values_all_later further earlier
      cases ended with
      | yielded value => exact ih test body (.cons value earlier)
      | skipped => exact ih test body earlier
      | stopped =>
        exact .pure fun _ last =>
          lawful.loopValue (lawful.body_later last body) (lawful.values_all_later last earlier)

theorem repeatTurns (lawful : L.Lawful) (evaluators : L.Evaluators inner inner')
    {loop loop' : Body} (count : Nat) {yielded yielded' : List Value}
    (same : SameBody (L.nodes γ c c') loop loop')
    (values : List.Forall₂ (L.values γ) yielded yielded') :
    L.Related γ c c' L.values (Eval.repeatTurns inner c loop count yielded)
      (Eval.repeatTurns inner' c' loop' count yielded') := by
  induction count generalizing γ yielded yielded' with
  | zero =>
    exact .pure fun _ last =>
      lawful.loopValue (lawful.body_later last same) (lawful.values_all_later last values)
  | succ count ih =>
    refine (lawful.body evaluators same).turn.bind fun δ later turn turn' ended => ?_
    have body := lawful.body_later later same
    have earlier := lawful.values_all_later later values
    cases ended with
    | yielded value => exact ih body (.cons value earlier)
    | skipped => exact ih body earlier
    | stopped =>
      exact .pure fun _ last =>
        lawful.loopValue (lawful.body_later last body) (lawful.values_all_later last earlier)

theorem forTurns (lawful : L.Lawful) (evaluators : L.Evaluators inner inner')
    {node node' : Node} {counter : String} {count : Eval.Count} {loop loop' : Body} (budget : Nat)
    (current : Number) {yielded yielded' : List Value} (nodes : L.nodes γ c c' node node')
    (bound : node.bound? = some counter) (same : SameBody (L.nodes γ c c') loop loop')
    (values : List.Forall₂ (L.values γ) yielded yielded') :
    L.Related γ c c' L.values (Eval.forTurns inner c counter count loop budget current yielded)
      (Eval.forTurns inner' c' counter count loop' budget current yielded') := by
  induction budget generalizing γ current yielded yielded' with
  | zero => exact .throw fun _ _ _ _ worlds => .spent (lawful.stop worlds)
  | succ budget ih =>
    simp only [Eval.forTurns]
    cases count.admits current with
    | false =>
      exact .pure fun _ last =>
        lawful.loopValue (lawful.body_later last same) (lawful.values_all_later last values)
    | true =>
      -- The counter is bound before the body, and the next number does not depend on the body.
      refine (Related.assign lawful nodes bound (lawful.number γ _)).bind
        fun δ later _ _ _ => ?_
      have body := lawful.body_later later same
      refine (lawful.body evaluators body).turn.bind fun ε further turn turn' ended => ?_
      have nodes := lawful.nodes_later (later.trans further) nodes
      have body := lawful.body_later further body
      have earlier := lawful.values_all_later (later.trans further) values
      cases ended with
      | yielded value => exact ih _ nodes body (.cons value earlier)
      | skipped => exact ih _ nodes body earlier
      | stopped =>
        exact .pure fun _ last =>
          lawful.loopValue (lawful.body_later last body) (lawful.values_all_later last earlier)

theorem forLoop (lawful : L.Lawful) (evaluators : L.Evaluators inner inner') (budget : Nat)
    {counter counter' : Ident} {first first' limit limit' : Node} {step step' : Option Node}
    {body body' : Body} {span span' : Span}
    (nodes : L.nodes γ c c' (.forLoop counter first limit step body span)
      (.forLoop counter' first' limit' step' body' span'))
    (name : counter.name = counter'.name) (start : L.nodes γ c c' first first')
    (stop : L.nodes γ c c' limit limit') (stride : Option.Rel (L.nodes γ c c') step step')
    (loop : SameBody (L.nodes γ c c') body body') :
    L.Related γ c c' L.values (Eval.forLoop inner c budget counter first limit step body)
      (Eval.forLoop inner' c' budget counter' first' limit' step' body') := by
  refine (lawful.number_related evaluators nodes start (.first ..) (.first ..)).bind
    fun δ later x _ same => ?_
  subst same
  refine (lawful.number_related evaluators (lawful.nodes_later later nodes)
    (lawful.nodes_later later stop) (.limit ..) (.limit ..)).bind fun ε further y _ same => ?_
  subst same
  -- From here on the two loops count through the same numbers.
  have nodes := lawful.nodes_later (later.trans further) nodes
  have loop := lawful.body_later (later.trans further) loop
  rw [← name]
  cases stride with
  | none =>
    refine Related.bind (.pure fun _ _ => rfl) fun ζ last z _ same => ?_
    subst same
    exact lawful.forTurns evaluators budget _ (lawful.nodes_later last nodes) rfl
      (lawful.body_later last loop) .nil
  | some stride =>
    refine (lawful.number_related evaluators nodes
      (lawful.nodes_later (later.trans further) stride) (.step ..) (.step ..)).bind
      fun ζ last z _ same => ?_
    subst same
    exact lawful.forTurns evaluators budget _ (lawful.nodes_later last nodes) rfl
      (lawful.body_later last loop) .nil

theorem define (lawful : L.Lawful) {name name' : Option Ident} {params params' : List Ident}
    {body body' : Body} {span span' : Span}
    (nodes : L.nodes γ c c' (.function name params body span)
      (.function name' params' body' span'))
    (names : name.map Ident.name = name'.map Ident.name) :
    L.Related γ c c' L.values (Eval.define c name params body)
      (Eval.define c' name' params' body') := by
  have function := lawful.closure nodes
  have made : ∀ δ, γ ≤ δ → L.values δ _ _ := fun δ later => lawful.values_later later function
  cases name with
  | none =>
    cases name' with
    | none => exact .pure made
    | some => cases names
  | some ident =>
    cases name' with
    | none => cases names
    | some ident' =>
      have same : ident.name = ident'.name := Option.some.inj names
      have bound := Related.assign lawful nodes (congrArg some same) function
      simp only [Eval.define, same] at bound made ⊢
      exact bound.bind fun δ later _ _ _ => .pure fun ε further => made ε (later.trans further)

theorem checkArity (lawful : L.Lawful) {callee callee' : Node} {arguments arguments' : List Node}
    {span span' : Span} {v v' : Value} (expected given : Nat)
    (nodes : L.nodes γ c c' (.call callee arguments span) (.call callee' arguments' span'))
    (values : L.values γ v v') :
    L.Related γ c c' (fun _ _ _ => expected = given) (Eval.checkArity c v expected given span)
      (Eval.checkArity c' v' expected given span') := by
  unfold Eval.checkArity
  rw [lawful.text_eq v v' values]
  split
  · exact .fail lawful nodes (.tooManyArgs ..) (.tooManyArgs ..) (by simp)
  · split
    · exact .fail lawful nodes (.tooFewArgs ..) (.tooFewArgs ..) (by simp)
    · exact .pure fun _ _ => by omega

/-- A built-in function is called: its scope is made, and then it talks to the console. -/
theorem callNative (lawful : L.Lawful) {callee callee' : Node} {arguments arguments' : List Node}
    {span span' : Span} {vs vs' : List Value} (native : Native)
    (nodes : L.nodes γ c c' (.call callee arguments span) (.call callee' arguments' span'))
    (values : List.Forall₂ (L.values γ) vs vs') :
    L.Related γ c c' L.values
      (do
        let scope ← Eval.newScope (Native.callScope globals vs)
        Eval.converse (⟨scope, ⟨native.name, some span⟩ :: c.frames⟩ : Context globals) span
          (native.execute (Native.callScope globals vs)))
      (do
        let scope ← Eval.newScope (Native.callScope globals' vs')
        Eval.converse (⟨scope, ⟨native.name, some span'⟩ :: c'.frames⟩ : Context globals') span'
          (native.execute (Native.callScope globals' vs'))) := by
  intro δ later w w' worlds
  have nodes := lawful.nodes_later later nodes
  have values := lawful.values_all_later later values
  obtain ⟨ε, last, made⟩ := lawful.callScope nodes values worlds
  have talks := lawful.converse w.scopes.size w'.scopes.size native
    (lawful.nodes_later last nodes) (lawful.values_all_later last values) made
  exact talks.earlier last

theorem apply (lawful : L.Lawful) (evaluators : L.Evaluators inner inner')
    {callee callee' : Node} {arguments arguments' : List Node} {span span' : Span} {v v' : Value}
    {vs vs' : List Value}
    (nodes : L.nodes γ c c' (.call callee arguments span) (.call callee' arguments' span'))
    (function : L.values γ v v') (values : List.Forall₂ (L.values γ) vs vs') :
    L.Related γ c c' L.values (Eval.apply inner c v vs span)
      (Eval.apply inner' c' v' vs' span') := by
  cases lawful.sameValue function with
  | @function f f' _ params =>
    simp only [Eval.apply]
    rw [← params, ← values.length_eq]
    refine (lawful.checkArity _ _ nodes function).bind fun δ later _ _ arity => ?_
    -- Entering takes the run to a stage that has the new scope. To the caller this is one more
    -- stage that has gone by.
    intro ε further w w' worlds
    have earlier := later.trans further
    obtain ⟨ζ, last, entered, body⟩ := lawful.enter (lawful.nodes_later earlier nodes)
      (lawful.values_later earlier function) (lawful.values_all_later earlier values) arity worlds
    rw [← params] at entered
    have ran : L.Related ζ c c' L.values _ _ := (lawful.body evaluators body).finishCall lawful
    exact (ran ζ le_rfl _ _ entered).earlier last
  | native native =>
    simp only [Eval.apply]
    rw [← values.length_eq]
    have talks := lawful.callNative native nodes values
    -- Whether or not the number of arguments is checked, the dialogue comes last.
    cases native.arity? with
    | none =>
      have unchecked : L.Related γ c c' (fun _ _ _ => True) (pure () : Eval Unit) (pure ()) :=
        .pure fun _ _ => trivial
      exact unchecked.bind fun _ later _ _ _ => talks.later later
    | some arity =>
      exact (lawful.checkArity _ _ nodes function).bind fun _ later _ _ _ => talks.later later
  | _ => exact .fail lawful nodes (.notCallable ..) (.notCallable ..) (by simp)

theorem call (lawful : L.Lawful) (evaluators : L.Evaluators inner inner')
    {callee callee' : Node} {arguments arguments' : List Node} {span span' : Span}
    (nodes : L.nodes γ c c' (.call callee arguments span) (.call callee' arguments' span'))
    (child : L.nodes γ c c' callee callee')
    (children : List.Forall₂ (L.nodes γ c c') arguments arguments') :
    L.Related γ c c' L.values (Eval.call inner c callee arguments span)
      (Eval.call inner' c' callee' arguments' span') := by
  refine (evaluators _ _ _ _ _ child).bind fun δ later v v' function => ?_
  refine (lawful.all evaluators (lawful.nodes_all_later later children)).bind
    fun ε further vs vs' values => ?_
  exact lawful.apply evaluators (lawful.nodes_later (later.trans further) nodes)
    (lawful.values_later further function) values

/-- One level of evaluation. -/
theorem node (lawful : L.Lawful) (evaluators : L.Evaluators inner inner') (budget : Nat)
    {node node' : Node} (nodes : L.nodes γ c c' node node') :
    L.Related γ c c' L.values (Eval.node inner budget c node)
      (Eval.node inner' budget c' node') := by
  cases lawful.sameNode nodes with
  | number value => exact .pure fun δ _ => lawful.number δ value
  | string value => exact .pure fun δ _ => lawful.string δ value
  | list children =>
    refine (lawful.all evaluators children).bind fun δ later vs vs' values => ?_
    exact .pure fun _ further => lawful.list (lawful.values_all_later further values)
  | access name => exact lawful.lookup_related nodes name
  | assign name child =>
    refine (evaluators _ _ _ _ _ child).bind fun δ later v v' values => ?_
    have bound := Related.assign lawful (lawful.nodes_later later nodes) rfl values
    rw [← name]
    exact bound.bind fun ε further _ _ _ => .pure fun _ last =>
      lawful.values_later (further.trans last) values
  | binary operator first second => exact lawful.binary_related evaluators nodes first second
  | unary operator child => exact lawful.unary_related evaluators nodes child
  | conditional branches => exact lawful.branches evaluators branches
  | forLoop name start stop stride loop =>
    exact lawful.forLoop evaluators budget nodes name start stop stride loop
  | whileLoop test loop => exact lawful.whileTurns evaluators budget test loop .nil
  | repeatLoop times loop =>
    refine (lawful.number_related evaluators nodes times (.count ..) (.count ..)).bind
      fun δ later x _ same => ?_
    subst same
    exact lawful.repeatTurns evaluators _ (lawful.body_later later loop) .nil
  | function names => exact lawful.define nodes names
  | call function values => exact lawful.call evaluators nodes function values
  | returning result =>
    cases result with
    | none =>
      exact .throw fun δ _ _ _ worlds => .returned le_rfl worlds (lawful.null δ)
    | some child =>
      refine (evaluators _ _ _ _ _ child).bind fun δ later v v' values => ?_
      exact .throw fun _ further _ _ worlds =>
        .returned le_rfl worlds (lawful.values_later further values)
  | continuing =>
    exact .throw fun _ _ _ _ worlds => .continued le_rfl worlds (lawful.continuing nodes)
  | breaking =>
    exact .throw fun _ _ _ _ worlds => .broke le_rfl worlds (lawful.breaking nodes)

/-- Evaluation takes corresponding nodes to corresponding results, whatever the budget. -/
theorem eval (lawful : L.Lawful) (budget : Nat) : L.Evaluators (eval budget) (eval budget) := by
  induction budget with
  | zero =>
    intro γ c c' node node' _
    exact .throw fun _ _ _ _ worlds => .spent (lawful.stop worlds)
  | succ budget ih =>
    intro γ c c' node node' nodes
    exact lawful.node ih budget nodes

/-- So does a whole program, which no signal leaves. -/
theorem evalProgram (lawful : L.Lawful) (budget : Nat) {program program' : Block}
    (nodes : List.Forall₂ (L.nodes γ ⟨globals, [.program]⟩ ⟨globals', [.program]⟩)
      program.statements program'.statements) :
    L.Related γ c c' L.values (evalProgram budget globals program)
      (evalProgram budget globals' program') :=
  (lawful.sequence (lawful.eval budget) (lawful.null γ) nodes).finishCall lawful

end Lawful

end Correspondence

end Primer
