import Primer.Machine.Eval
import Primer.Proofs.Program.Occurrence

/-!
# Budgets

Evaluation has a budget only because programs need not end. A greater budget changes nothing but
this: an evaluation that would have run out of it goes on. So an evaluation that ends at all has one
result, whatever the budget that it ends within.

The order is that of approximation, in which running out of budget is below everything else. All that
evaluation is made of respects it, one lemma for each equation of the language, and `eval` by
induction on the budget.
-/

namespace Primer

variable {α β : Type}

/-- The first evaluation runs out of budget, or it ends as the second does. -/
def Eval.Approximates (x y : Eval α) : Prop :=
  ∀ world, (∃ after, x world = .error .outOfBudget after) ∨ x world = y world

/-- The first evaluator approximates the second at every node. -/
def Evaluator.Approximates {globals : ScopeId} (inner inner' : Evaluator globals) : Prop :=
  ∀ context node, (inner context node).Approximates (inner' context node)

namespace Eval.Approximates

variable {x y : Eval α} {f g : α → Eval β}

theorem refl (x : Eval α) : x.Approximates x :=
  fun _ => .inr rfl

theorem spent (x : Eval α) : Eval.Approximates (throw .outOfBudget) x :=
  fun world => .inl ⟨world, rfl⟩

theorem bind (first : x.Approximates y) (next : ∀ a, (f a).Approximates (g a)) :
    Eval.Approximates (x >>= f) (y >>= g) := by
  intro world
  simp only [Bind.bind, EStateM.bind]
  rcases first world with ⟨after, spent⟩ | same
  · rw [spent]
    exact .inl ⟨after, rfl⟩
  · rw [same]
    cases y world with
    | ok a after => exact next a after
    | error => exact .inr rfl

theorem turn {x y : Eval Value} (approximates : x.Approximates y) :
    (Eval.turn x).Approximates (Eval.turn y) := by
  intro world
  unfold Eval.turn
  rcases approximates world with ⟨after, spent⟩ | same
  · rw [spent]
    exact .inl ⟨after, rfl⟩
  · rw [same]
    exact .inr rfl

theorem finishCall {globals : ScopeId} {x y : Eval Value} (context : Context globals)
    (approximates : x.Approximates y) :
    (Eval.finishCall context x).Approximates (Eval.finishCall context y) := by
  intro world
  unfold Eval.finishCall
  rcases approximates world with ⟨after, spent⟩ | same
  · rw [spent]
    exact .inl ⟨after, rfl⟩
  · rw [same]
    exact .inr rfl

end Eval.Approximates

namespace Evaluator.Approximates

variable {globals : ScopeId} {inner inner' : Evaluator globals}
  (approximates : Evaluator.Approximates inner inner') (context : Context globals)
include approximates

theorem all (nodes : List Node) :
    (Eval.all inner context nodes).Approximates (Eval.all inner' context nodes) := by
  induction nodes with
  | nil => exact .refl _
  | cons node nodes ih =>
    exact (approximates context node).bind fun _ => ih.bind fun _ => .refl _

theorem sequence (last : Value) (nodes : List Node) :
    (Eval.sequence inner context last nodes).Approximates
      (Eval.sequence inner' context last nodes) := by
  induction nodes generalizing last with
  | nil => exact .refl _
  | cons node nodes ih => exact (approximates context node).bind fun value => ih value

theorem body (body : Body) :
    (Eval.body inner context body).Approximates (Eval.body inner' context body) := by
  cases body with
  | inline statement => exact approximates context statement
  | block statements =>
    have ran := approximates.sequence context .null statements
    exact (ran.bind fun _ => .refl _).bind fun _ => .refl _

theorem binary (left : Node) (operator : Token) (right : Node) :
    (Eval.binary inner context left operator right).Approximates
      (Eval.binary inner' context left operator right) :=
  (approximates context left).bind fun _ => (approximates context right).bind fun _ => .refl _

theorem unary (operator : Token) (operand : Node) (span : Span) :
    (Eval.unary inner context operator operand span).Approximates
      (Eval.unary inner' context operator operand span) :=
  (approximates context operand).bind fun _ => .refl _

theorem branches (others : Branches) :
    (Eval.branches inner context others).Approximates (Eval.branches inner' context others) := by
  cases others with
  | none => exact .refl _
  | otherwise last => exact approximates.body context last
  | elif condition first others =>
    refine (approximates context condition).bind fun value => ?_
    split
    · exact approximates.body context first
    · exact branches others

theorem number (node : Node) :
    (Eval.number inner context node).Approximates (Eval.number inner' context node) :=
  (approximates context node).bind fun _ => .refl _

/-- A loop of unknown length spends its budget turn by turn. -/
theorem whileTurns (condition : Node) (loop : Body) {budget more : Nat} (le : budget ≤ more)
    (yielded : List Value) :
    (Eval.whileTurns inner context condition loop budget yielded).Approximates
      (Eval.whileTurns inner' context condition loop more yielded) := by
  induction budget generalizing more yielded with
  | zero => exact .spent _
  | succ budget ih =>
    obtain ⟨more, rfl⟩ := Nat.exists_eq_add_of_le' (Nat.one_le_of_lt le)
    have less := Nat.le_of_succ_le_succ le
    refine (approximates context condition).bind fun value => ?_
    split
    · refine (approximates.body context loop).turn.bind fun turn => ?_
      cases turn with
      | yielded value => exact ih less _
      | skipped => exact ih less _
      | stopped => exact .refl _
    · exact .refl _

theorem repeatTurns (loop : Body) (count : Nat) (yielded : List Value) :
    (Eval.repeatTurns inner context loop count yielded).Approximates
      (Eval.repeatTurns inner' context loop count yielded) := by
  induction count generalizing yielded with
  | zero => exact .refl _
  | succ count ih =>
    refine (approximates.body context loop).turn.bind fun turn => ?_
    cases turn with
    | yielded value => exact ih _
    | skipped => exact ih _
    | stopped => exact .refl _

theorem forTurns (counter : String) (count : Eval.Count) (loop : Body) {budget more : Nat}
    (le : budget ≤ more) (current : Number) (yielded : List Value) :
    (Eval.forTurns inner context counter count loop budget current yielded).Approximates
      (Eval.forTurns inner' context counter count loop more current yielded) := by
  induction budget generalizing more current yielded with
  | zero => exact .spent _
  | succ budget ih =>
    obtain ⟨more, rfl⟩ := Nat.exists_eq_add_of_le' (Nat.one_le_of_lt le)
    have less := Nat.le_of_succ_le_succ le
    simp only [Eval.forTurns]
    split
    · refine (Eval.Approximates.refl _).bind fun _ => ?_
      refine (approximates.body context loop).turn.bind fun turn => ?_
      cases turn with
      | yielded value => exact ih less _ _
      | skipped => exact ih less _ _
      | stopped => exact .refl _
    · exact .refl _

theorem forLoop {budget more : Nat} (le : budget ≤ more) (counter : Ident) (first limit : Node)
    (step : Option Node) (loop : Body) :
    (Eval.forLoop inner context budget counter first limit step loop).Approximates
      (Eval.forLoop inner' context more counter first limit step loop) := by
  refine (approximates.number context first).bind fun start => ?_
  refine (approximates.number context limit).bind fun stop => ?_
  cases step with
  | none => exact (Eval.Approximates.refl _).bind fun _ => approximates.forTurns context _ _ _ le _ _
  | some step =>
    exact (approximates.number context step).bind fun _ =>
      approximates.forTurns context _ _ _ le _ _

theorem apply (callee : Value) (arguments : List Value) (span : Span) :
    (Eval.apply inner context callee arguments span).Approximates
      (Eval.apply inner' context callee arguments span) := by
  cases callee with
  | function f =>
    refine (Eval.Approximates.refl _).bind fun _ => (Eval.Approximates.refl _).bind fun scope => ?_
    exact (approximates.body _ f.body).finishCall _
  | _ => exact .refl _

theorem call (callee : Node) (arguments : List Node) (span : Span) :
    (Eval.call inner context callee arguments span).Approximates
      (Eval.call inner' context callee arguments span) :=
  (approximates context callee).bind fun function =>
    (approximates.all context arguments).bind fun values =>
      approximates.apply context function values span

/-- One level of evaluation. -/
theorem node {budget more : Nat} (le : budget ≤ more) (node : Node) :
    (Eval.node inner budget context node).Approximates (Eval.node inner' more context node) := by
  cases node with
  | list elements => exact (approximates.all context elements).bind fun _ => .refl _
  | assign _ value => exact (approximates context value).bind fun _ => .refl _
  | binary left operator right => exact approximates.binary context left operator right
  | unary operator operand span => exact approximates.unary context operator operand span
  | conditional condition first others =>
    exact approximates.branches context (.elif condition first others)
  | forLoop counter first limit step loop =>
    exact approximates.forLoop context le counter first limit step loop
  | whileLoop condition loop => exact approximates.whileTurns context condition loop le []
  | repeatLoop count loop =>
    exact (approximates.number context count).bind fun _ => approximates.repeatTurns context loop _ []
  | call callee arguments span => exact approximates.call context callee arguments span
  | returning value =>
    cases value with
    | none => exact .refl _
    | some value => exact (approximates context value).bind fun _ => .refl _
  | number | string | «variable» | function | continuing | breaking => exact .refl _

end Evaluator.Approximates

/-- A smaller budget approximates a greater one. -/
theorem eval_approximates {globals : ScopeId} {budget more : Nat} (le : budget ≤ more) :
    Evaluator.Approximates (eval budget : Evaluator globals) (eval more) := by
  induction budget generalizing more with
  | zero => exact fun _ _ => .spent _
  | succ budget ih =>
    obtain ⟨more, rfl⟩ := Nat.exists_eq_add_of_le' (Nat.one_le_of_lt le)
    have less := Nat.le_of_succ_le_succ le
    exact fun context node => (ih less).node context less node

/-! ### Ending and not ending -/

section Ends

variable {globals : ScopeId} {context : Context globals} {node : Node} {world : World}
  {result : EStateM.Result Exit World Value}

/-- The result is there before the budget is spent. -/
def InBudget (result : EStateM.Result Exit World Value) : Prop :=
  ∀ after, result ≠ .error .outOfBudget after

/-- The evaluation ends, with this result whenever its budget is large enough. -/
def Settles (context : Context globals) (node : Node) (world : World)
    (result : EStateM.Result Exit World Value) : Prop :=
  InBudget result ∧ ∃ enough, ∀ budget ≥ enough, eval budget context node world = result

/-- The evaluation does not end, whatever its budget. -/
def Diverges (context : Context globals) (node : Node) (world : World) : Prop :=
  ∀ budget, ∃ after, eval budget context node world = .error .outOfBudget after

/-- What ends within a budget ends in the same way within every greater one. -/
theorem eval_of_le {budget more : Nat} (le : budget ≤ more) (ended : InBudget result)
    (ran : eval budget context node world = result) : eval more context node world = result := by
  rcases eval_approximates le context node world with ⟨after, spent⟩ | same
  · exact absurd (ran.symm.trans spent) (ended after)
  · exact same.symm.trans ran

theorem settles_of_eval {budget : Nat} (ended : InBudget result)
    (ran : eval budget context node world = result) : Settles context node world result :=
  ⟨ended, budget, fun _ le => eval_of_le le ended ran⟩

/-- It is enough that all large budgets are spent. -/
theorem diverges_of_forall_ge {enough : Nat}
    (spent : ∀ budget ≥ enough, ¬InBudget (eval budget context node world)) :
    Diverges context node world := by
  intro budget
  rcases eval_approximates (le_max_left budget enough) context node world with spent | same
  · exact spent
  · have late := spent _ (le_max_right budget enough)
    rw [← same, InBudget, not_forall] at late
    obtain ⟨after, ran⟩ := late
    exact ⟨after, not_not.mp ran⟩

end Ends

end Primer
