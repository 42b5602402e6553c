import Primer.Proofs.Evaluation.Isolation
import Primer.Proofs.Machine.Concealment
import Primer.Proofs.Number.Exactness

/-!
# Counting loops

A counting loop evaluates its header once and then its body, once for each number on the way from
the first to the limit. The numbers are settled before the first turn: whatever a body does, the next
one starts with the counter bound to the next number.

## Main result

`counting_loop_law`: where the body of a loop is evaluated from, how often, and what comes of it.

## Proof strategy

The number of turns still due is a function of the current number, the limit and the step; it is not
zero exactly when the loop goes on, and each step takes one off it. The passes through the body are
then found by induction on the budget, one turn at a time.
-/

namespace Primer

/-! ### How many turns are due -/

/-- The value is a 64-bit integer. -/
def FitsInt64 (value : Int) : Prop :=
  Int64.minValue.toInt ≤ value ∧ value ≤ Int64.maxValue.toInt

/-- The number of steps from a number up or down to a limit, the last one maybe beyond it. -/
def turnsDue (current limit step : Int) : Nat :=
  ⌈((limit - current : Int) : ℚ) / step⌉.toNat

section Turns

variable {current limit step : Int}

theorem lt_turnsDue_iff (nonzero : step ≠ 0) (k : Nat) : k < turnsDue current limit step ↔
    if 0 ≤ step then current + k * step < limit else limit < current + k * step := by
  rw [turnsDue, Int.lt_toNat, Int.lt_ceil]
  push_cast
  split
  next up =>
    have positive : (0 : ℚ) < step := by exact_mod_cast lt_of_le_of_ne up nonzero.symm
    rw [lt_div_iff₀ positive, lt_sub_iff_add_lt']
    exact_mod_cast Iff.rfl
  next down =>
    have negative : (step : ℚ) < 0 := by exact_mod_cast not_le.mp down
    rw [lt_div_iff_of_neg negative, sub_lt_iff_lt_add']
    exact_mod_cast Iff.rfl

/-- Each step takes one off the number of turns. -/
theorem turnsDue_step (nonzero : step ≠ 0) (due : 0 < turnsDue current limit step) :
    turnsDue current limit step = turnsDue (current + step) limit step + 1 := by
  have divisor : (step : ℚ) ≠ 0 := by exact_mod_cast nonzero
  have split : ((limit - current : Int) : ℚ) / step
      = ((limit - (current + step) : Int) : ℚ) / step + 1 := by
    field_simp
    push_cast
    ring
  rw [turnsDue, split, Int.ceil_add_one] at due ⊢
  rw [turnsDue]
  omega

end Turns

namespace Number

theorem add_int {x y : Int64} (fits : FitsInt64 (x.toInt + y.toInt)) :
    ∃ z : Int64, z.toInt = x.toInt + y.toInt ∧ (Number.int x).add (.int y) = .int z := by
  have same : (Int64.ofInt (x.toInt + y.toInt)).toInt = x.toInt + y.toInt :=
    Int64.toInt_ofInt_of_le fits.1 (Int.lt_of_le_of_lt fits.2 (by decide))
  exact ⟨_, same, exactOr_of_toInt same _⟩

end Number

theorem Eval.Count.admits_int (current limit step : Int64) :
    (Count.mk (.int limit) (.int step)).admits (.int current) = true ↔
      if 0 ≤ step.toInt then current.toInt < limit.toInt else limit.toInt < current.toInt := by
  have up : (Count.mk (.int limit) (.int step)).ascending = decide (0 ≤ step.toInt) := by
    have order : (Number.int step).order? (.int 0) = some (compare step.toInt 0) := rfl
    rw [ascending, order, Option.any_some, Bool.eq_iff_iff, bne_iff_ne, decide_eq_true_iff,
      Ne, Int.compare_eq_lt, Int.not_lt]
  have order : (Number.int current).order? (.int limit)
      = some (compare current.toInt limit.toInt) := rfl
  rw [admits, up, order, Option.any_some]
  by_cases ascends : 0 ≤ step.toInt
  · simp [ascends, Int.compare_eq_lt]
  · simp [ascends, Int.compare_eq_gt]

/-! ### Passes through the body -/

/-- One evaluation of the body of a loop: the world it starts from, and how it ends. -/
structure Pass where
  before : World
  result : EStateM.Result Exit World Value

namespace Pass

/-- The world it leaves. -/
def after (pass : Pass) : World :=
  match pass.result with
  | .ok _ world => world
  | .error _ world => world

/-- It ends with a value or with `continue`. -/
def GoesOn (pass : Pass) : Prop :=
  (∃ value world, pass.result = .ok value world) ∨
    ∃ span world, pass.result = .error (.continued span) world

/-- What it adds to the value of the loop. -/
def value? (pass : Pass) : Option Value :=
  match pass.result with
  | .ok value _ => some value
  | .error _ _ => none

end Pass

namespace World

/-- The world in which a scope binds the name to the value. -/
def set (world : World) (scope : ScopeId) (name : String) (value : Value) : World :=
  { world with scopes := world.scopes.set scope name value }

/-- The world behind the passes. -/
def behind (world : World) (passes : List Pass) : World :=
  passes.foldl (fun _ pass => pass.after) world

end World

/-- The passes through the body of a counting loop that starts in the world, goes through the numbers
from `first` on in steps, and is due so many turns. -/
structure Counted (body : Eval Value) (scope : ScopeId) (counter : String) (first step : Int)
    (turns : Nat) (start : World) (passes : List Pass) : Prop where
  /-- A pass starts in the world that the one before has left, but for the counter: it is bound to
  the next number. -/
  starts : ∀ (k : Nat) (pass : Pass), passes[k]? = some pass → ∃ x : Int64, x.toInt = first + k * step ∧
    pass.before = (start.behind (passes.take k)).set scope counter (.number (.int x)) ∧
    pass.before.scopes.ownAt? counter scope = some (.number (.int x))
  runs : ∀ pass ∈ passes, body pass.before = pass.result
  goesOn : ∀ pass ∈ passes.dropLast, pass.GoesOn
  bounded : passes.length ≤ turns

/-- The value of a loop whose passes have yielded these values. -/
def Body.collected (body : Body) (values : List Value) : Value :=
  if body.isBlock then .null else .list values

theorem Eval.loopValue_eq (body : Body) (yielded : List Value) :
    loopValue body yielded = body.collected yielded.reverse := rfl

/-- How a loop ends that has made these passes: after all turns, by `break`, by a way out of its last
pass, or because more turns are due than its budget allows. -/
inductive LoopEnds (value : Value) (start : World) (turns budget : Nat) (passes : List Pass) :
    EStateM.Result Exit World Value → Prop
  | finished (all : ∀ pass ∈ passes, pass.GoesOn) (count : passes.length = turns) :
      LoopEnds value start turns budget passes (.ok value (start.behind passes))
  | broken {last : Pass} {span : Span} {world : World} (here : passes.getLast? = some last)
      (ended : last.result = .error (.broke span) world) :
      LoopEnds value start turns budget passes (.ok value world)
  | left {last : Pass} {exit : Exit} {world : World} (here : passes.getLast? = some last)
      (ended : last.result = .error exit world)
      (outwards : ∀ span, exit ≠ .broke span ∧ exit ≠ .continued span) :
      LoopEnds value start turns budget passes (.error exit world)
  | spent (all : ∀ pass ∈ passes, pass.GoesOn) (count : passes.length = budget)
      (more : budget ≤ turns) :
      LoopEnds value start turns budget passes (.error .outOfBudget (start.behind passes))

/-! ### One turn -/

namespace Eval

variable {globals : ScopeId} {inner : Evaluator globals} {context : Context globals}
  {counter : String} {count : Count} {loop : Body}
  {budget : Nat} {current : Number} {yielded : List Value} {world : World}

/-- A turn that is not due ends the loop. -/
theorem forTurns_done (done : count.admits current = false) :
    forTurns inner context counter count loop (budget + 1) current yielded world
      = .ok (loopValue loop yielded) world := by
  rw [forTurns, done]
  rfl

/-- What becomes of a turn that is due depends on how the body ends. -/
theorem forTurns_due (due : count.admits current = true) :
    forTurns inner context counter count loop (budget + 1) current yielded world =
      match body inner context loop (world.set context.scope counter (.number current)) with
      | .ok value after => forTurns inner context counter count loop budget
          (current.add count.step) (value :: yielded) after
      | .error (.continued _) after => forTurns inner context counter count loop budget
          (current.add count.step) yielded after
      | .error (.broke _) after => .ok (loopValue loop yielded) after
      | .error exit after => .error exit after := by
  rw [forTurns, if_pos due]
  simp only [bind, EStateM.bind, assign, modify, modifyGet, MonadStateOf.modifyGet, EStateM.modifyGet,
    turn, World.set]
  cases body inner context loop { world with
    scopes := world.scopes.set context.scope counter (.number current) } with
  | ok => rfl
  | error exit => cases exit <;> rfl

end Eval

/-! ### All turns -/

section Passes

variable {body : Eval Value} {scope : ScopeId} {counter : String} {first step : Int}
  {turns budget : Nat} {start : World} {passes : List Pass} {pass : Pass}

theorem Counted.nil : Counted body scope counter first step turns start [] :=
  ⟨nofun, nofun, nofun, Nat.zero_le turns⟩

/-- One more pass in front. The others follow only if the loop goes on behind it. -/
theorem Counted.cons {x : Int64} (number : x.toInt = first) (inside : scope < start.scopes.size)
    (before : pass.before = start.set scope counter (.number (.int x)))
    (runs : body pass.before = pass.result) (goesOn : passes ≠ [] → pass.GoesOn)
    (rest : Counted body scope counter (first + step) step turns pass.after passes) :
    Counted body scope counter first step (turns + 1) start (pass :: passes) := by
  constructor
  case starts =>
    intro k other here
    cases k with
    | zero =>
      cases here
      refine ⟨x, by simp [number], before, ?_⟩
      rw [before]
      exact Scopes.ownAt?_set_self _ _ inside
    | succ k =>
      obtain ⟨y, next, before, bound⟩ := rest.starts k other here
      refine ⟨y, ?_, before, bound⟩
      rw [next]
      push_cast
      ring
  case runs => exact List.forall_mem_cons.mpr ⟨runs, rest.runs⟩
  case goesOn =>
    cases passes with
    | nil => exact nofun
    | cons next passes =>
      exact List.forall_mem_cons.mpr ⟨goesOn (List.cons_ne_nil _ _), rest.goesOn⟩
  case bounded => exact Nat.succ_le_succ rest.bounded

/-- The last pass. -/
theorem Counted.single {x : Int64} (number : x.toInt = first) (inside : scope < start.scopes.size)
    (before : pass.before = start.set scope counter (.number (.int x)))
    (runs : body pass.before = pass.result) :
    Counted body scope counter first step (turns + 1) start [pass] :=
  .cons number inside before runs (fun more => absurd rfl more) .nil

/-- Where the loop goes on it ends as the passes behind have it. -/
theorem LoopEnds.cons {value : Value} {result : EStateM.Result Exit World Value}
    (goesOn : pass.GoesOn) (ends : LoopEnds value pass.after turns budget passes result) :
    LoopEnds value start (turns + 1) (budget + 1) (pass :: passes) result := by
  have latest {last : Pass} (here : passes.getLast? = some last) :
      (pass :: passes).getLast? = some last := by
    rw [List.getLast?_cons, here]
    rfl
  cases ends with
  | finished all count =>
    exact .finished (List.forall_mem_cons.mpr ⟨goesOn, all⟩) (congrArg (· + 1) count)
  | broken here ended => exact .broken (latest here) ended
  | left here ended outwards => exact .left (latest here) ended outwards
  | spent all count more =>
    exact .spent (List.forall_mem_cons.mpr ⟨goesOn, all⟩) (congrArg (· + 1) count)
      (Nat.succ_le_succ more)

end Passes

section Loop

variable {globals : ScopeId} {inner : Evaluator globals} {context : Context globals}
  {counter : String} {loop : Body}
  {limit step : Int64}

/-- As long as turns are due the next number is an integer, because it does not go further beyond the
limit than one step. -/
theorem fits_next {current : Int64} (fits : FitsInt64 (limit.toInt + step.toInt))
    (due : if 0 ≤ step.toInt then current.toInt < limit.toInt else limit.toInt < current.toInt) :
    FitsInt64 (current.toInt + step.toInt) := by
  have low := current.minValue_le_toInt
  have high := current.toInt_le
  unfold FitsInt64 at fits ⊢
  split at due <;> omega

/-- The turns of a counting loop, whatever numbers it has gone through and whatever it has yielded
before. -/
theorem exists_passes (nonzero : step.toInt ≠ 0) (fits : FitsInt64 (limit.toInt + step.toInt))
    (keeps : ∀ w, w.scopes.size ≤ ((Eval.body inner context loop).after w).scopes.size)
    (budget : Nat) (current : Int64) (yielded : List Value) (world : World)
    (inside : context.scope < world.scopes.size) :
    ∃ passes, Counted (Eval.body inner context loop) context.scope counter current.toInt step.toInt
        (turnsDue current.toInt limit.toInt step.toInt) world passes ∧
      LoopEnds (loop.collected (yielded.reverse ++ passes.filterMap Pass.value?)) world
        (turnsDue current.toInt limit.toInt step.toInt) budget passes
        (Eval.forTurns inner context counter ⟨.int limit, .int step⟩ loop budget (.int current)
          yielded world) := by
  induction budget generalizing current yielded world with
  | zero => exact ⟨[], .nil, .spent (by simp) rfl (Nat.zero_le _)⟩
  | succ budget ih =>
    have due_iff : 0 < turnsDue current.toInt limit.toInt step.toInt ↔
        if 0 ≤ step.toInt then current.toInt < limit.toInt else limit.toInt < current.toInt := by
      simpa using lt_turnsDue_iff nonzero 0
    by_cases due : 0 < turnsDue current.toInt limit.toInt step.toInt
    · have admitted := (Eval.Count.admits_int current limit step).mpr (due_iff.mp due)
      obtain ⟨next, sum, added⟩ := Number.add_int (fits_next fits (due_iff.mp due))
      rw [turnsDue_step nonzero due, ← sum, Eval.forTurns_due admitted, added]
      let before := world.set context.scope counter (.number (.int current))
      have size : world.scopes.size ≤ ((Eval.body inner context loop).after before).scopes.size := by
        simpa [before, World.set, Scopes.set] using keeps before
      unfold Eval.after at size
      cases ran : Eval.body inner context loop before with
      | ok value after =>
        rw [ran] at size
        obtain ⟨passes, counted, ends⟩ := ih next (value :: yielded) after (inside.trans_le size)
        have goesOn : (Pass.mk before (.ok value after)).GoesOn := .inl ⟨value, after, rfl⟩
        refine ⟨⟨before, .ok value after⟩ :: passes,
          .cons rfl inside rfl ran (fun _ => goesOn) (sum ▸ counted), .cons goesOn ?_⟩
        simpa [Pass.value?, Pass.after] using ends
      | error exit after =>
        rw [ran] at size
        cases exit with
        | continued span =>
          obtain ⟨passes, counted, ends⟩ := ih next yielded after (inside.trans_le size)
          have goesOn : (Pass.mk before (.error (.continued span) after)).GoesOn :=
            .inr ⟨span, after, rfl⟩
          exact ⟨⟨before, .error (.continued span) after⟩ :: passes,
            .cons rfl inside rfl ran (fun _ => goesOn) (sum ▸ counted), .cons goesOn ends⟩
        | broke span =>
          refine ⟨[⟨before, .error (.broke span) after⟩], .single rfl inside rfl ran, ?_⟩
          simp only [Eval.loopValue_eq, List.filterMap_cons, Pass.value?, List.filterMap_nil,
            List.append_nil]
          exact .broken rfl rfl
        | returned | failed | awaitingInput | outOfBudget =>
          exact ⟨[⟨before, .error _ after⟩], .single rfl inside rfl ran, .left rfl rfl (by simp)⟩
    · have done : (Eval.Count.mk (.int limit) (.int step)).admits (.int current) = false := by
        rw [Bool.eq_false_iff, Ne, Eval.Count.admits_int, ← due_iff]
        exact due
      refine ⟨[], .nil, ?_⟩
      rw [Eval.forTurns_done done, Eval.loopValue_eq, List.filterMap_nil, List.append_nil]
      exact .finished (by simp) (Nat.eq_zero_of_not_pos due).symm

end Loop

/-! ### The loop with its header -/

variable {globals : ScopeId}

/-- Evaluation takes no scopes away. -/
theorem size_le_after_body (budget : Nat) (context : Context globals) (body : Body)
    (world : World) :
    world.scopes.size ≤ ((Eval.body (eval budget) context body).after world).scopes.size := by
  let everything (_ : ScopeId) : Prop := True
  have lawful : (isolation globals world.scopes everything).Lawful :=
    isolation_lawful fun _ _ => trivial
  have outcome : (isolation globals world.scopes everything).Outcome () context
      (Eval.body (eval budget) context body world) :=
    lawful.body budget (fun _ _ => trivial) (.start world everything)
  exact (unaltered_of_outcome outcome).size

theorem size_le_of_eval {budget : Nat} {context : Context globals} {node : Node}
    {world after : World} {value : Value} (ran : eval budget context node world = .ok value after) :
    world.scopes.size ≤ after.scopes.size := by
  have size := size_le_after_body budget context (.inline node) world
  rwa [Eval.after, Eval.body, ran] at size

namespace Eval

/-- The step of a counting loop, which is one where it is left out. -/
def stride (inner : Evaluator globals) (context : Context globals) : Option Node → Eval Value
  | some step => inner context step
  | none => return .number (.int 1)

variable {inner : Evaluator globals} {context : Context globals}

theorem number_eq {node : Node} {x : Number} {world after : World}
    (ran : inner context node world = .ok (.number x) after) :
    number inner context node world = .ok x after := by
  simp only [number, bind, EStateM.bind, ran]
  rfl

/-- The header is evaluated from left to right, each part of it once. -/
theorem forLoop_eq {counter : Ident} {first limit : Node} {step : Option Node} {loop : Body}
    {a b s : Number} {w₀ w₁ w₂ w₃ : World} (budget : Nat)
    (start : inner context first w₀ = .ok (.number a) w₁)
    (stop : inner context limit w₁ = .ok (.number b) w₂)
    (steps : stride inner context step w₂ = .ok (.number s) w₃) :
    forLoop inner context budget counter first limit step loop w₀
      = forTurns inner context counter.name ⟨b, s⟩ loop budget a [] w₃ := by
  simp only [forLoop, bind, EStateM.bind, number_eq start, number_eq stop]
  cases step with
  | none =>
    cases steps
    rfl
  | some step =>
    have number := number_eq (show inner context step w₂ = .ok (.number s) w₃ from steps)
    simp only [EStateM.bind, number]

theorem size_le_of_stride {budget : Nat} {step : Option Node} {world after : World} {value : Value}
    (ran : stride (eval budget) context step world = .ok value after) :
    world.scopes.size ≤ after.scopes.size := by
  cases step with
  | none =>
    cases ran
    exact Nat.le_refl _
  | some step => exact size_le_of_eval ran

end Eval

/-- A counting loop with integers in its header, a step other than zero and a limit that may be
overstepped. Whatever its budget, it evaluates the body from where the header has led to: with the
counter bound to each number in turn, as often as there are numbers unless the body ends the loop
before, and it has the value that this gives. -/
theorem counting_loop_law (budget : Nat) (context : Context globals) (counter : Ident)
    (first limit : Node) (step : Option Node) (loop : Body) (span : Span) {a b s : Int64} {w₀ w₁ w₂ w₃ : World}
    (inside : context.scope < w₀.scopes.size)
    (start : eval budget context first w₀ = .ok (.number (.int a)) w₁)
    (stop : eval budget context limit w₁ = .ok (.number (.int b)) w₂)
    (steps : Eval.stride (eval budget) context step w₂ = .ok (.number (.int s)) w₃)
    (nonzero : s ≠ 0) (fits : FitsInt64 (b.toInt + s.toInt)) :
    ∃ passes : List Pass,
      Counted (Eval.body (eval budget) context loop) context.scope counter.name a.toInt s.toInt
        (turnsDue a.toInt b.toInt s.toInt) w₃ passes ∧
      LoopEnds (loop.collected (passes.filterMap Pass.value?)) w₃
        (turnsDue a.toInt b.toInt s.toInt) budget passes
        (eval (budget + 1) context (.forLoop counter first limit step loop span) w₀) := by
  have nonzero' : s.toInt ≠ 0 := fun zero => nonzero (Int64.toInt_inj.mp zero)
  have node : eval (budget + 1) context (.forLoop counter first limit step loop span) w₀
      = Eval.forTurns (eval budget) context counter.name ⟨.int b, .int s⟩ loop budget (.int a) [] w₃ :=
    Eval.forLoop_eq budget start stop steps
  have grown : w₀.scopes.size ≤ w₃.scopes.size :=
    (size_le_of_eval start).trans ((size_le_of_eval stop).trans (Eval.size_le_of_stride steps))
  rw [node]
  exact exists_passes nonzero' fits (size_le_after_body budget context loop) budget a [] w₃
    (inside.trans_le grown)

/-- The body binds the counter anew, to no effect on the turns after it: 5, 3 and 1 are counted down
to a limit that is not met. -/
theorem counting_loop_law_rebound :
    let world : World := ⟨#[.empty none], .ofInput [] .none true⟩
    let context : Context := ⟨0, [.program]⟩
    let number (x : Int64) : Node := .number (.int x) default
    let i : Ident := ⟨"i", default⟩
    let body : Body :=
      .inline (.assign i (.binary (.variable i) .times (number 10) default) default)
    let loop : Node := .forLoop i (number 5) (number 0) (some (number (-2))) body default
    0 < world.scopes.size ∧ eval 4 context (number 5) world = .ok (.number (.int 5)) world ∧
      eval 4 context (number 0) world = .ok (.number (.int 0)) world ∧
      eval 4 context (number (-2)) world = .ok (.number (.int (-2))) world ∧
      FitsInt64 (0 + -2) ∧ turnsDue 5 0 (-2) = 3 ∧
      (∃ after, eval 5 context loop world = .ok (.list
        [.number (.int 50), .number (.int 30), .number (.int 10)]) after) ∧
      ∃ passes : List Pass,
        Counted (Eval.body (eval 4) context body) 0 "i" 5 (-2) (turnsDue 5 0 (-2)) world passes ∧
        LoopEnds (.list (passes.filterMap Pass.value?)) world (turnsDue 5 0 (-2)) 4 passes
          (eval 5 context loop world) := by
  intro world context number i body loop
  have fits : FitsInt64 (0 + -2) := ⟨by decide, by decide⟩
  have turns : turnsDue 5 0 (-2) = 3 := by
    have ceil : ⌈((0 - 5 : Int) : ℚ) / (-2 : Int)⌉ = 3 := by norm_num
    rw [turnsDue, ceil]
    rfl
  refine ⟨by decide, rfl, rfl, rfl, fits, turns, ⟨_, rfl⟩, ?_⟩
  exact counting_loop_law 4 context i (number 5) (number 0) (some (number (-2))) body default
    (by decide) rfl rfl rfl (by decide) fits

end Primer
