import Primer.Proofs.Evaluation.Budget
import Primer.Proofs.Evaluation.Counting
import Primer.Proofs.Evaluation.Interference

/-!
# Repeating and counting

To repeat a body so many times is to count from zero up to the number with a counter that nobody
looks at.

## Main result

`repeat_agrees_with_counting`: the two loops end in the same way, or neither of them ends, and what
they leave differs in the counter only.

## Proof strategy

The two loops make their turns together. Before each of them the counting loop binds the counter, so
the two worlds differ in that binding; the body does not mention the counter and runs the same from
both (`Correspondence.concealing`). What is particular to the counting loop is that it spends budget
on its turns. So the loops agree within all budgets beyond the number of turns, and a smaller budget
does not matter to whether and how an evaluation ends.
-/

namespace Primer

/-- The worlds are the same but for the name in one scope. -/
def World.SameBut (top : ScopeId) (name : String) (world world' : World) : Prop :=
  world.without top name = world'.without top name

theorem SameEnd.inBudget_iff {worlds : World → World → Prop}
    {result result' : EStateM.Result Exit World Value} (same : SameEnd worlds result result') :
    InBudget result ↔ InBudget result' := by
  cases same with
  | value v left => simp [InBudget]
  | exit x left => cases x <;> simp [InBudget]

/-- Two evaluations that agree within all large budgets both end, in the same way, or neither does. -/
theorem diverge_or_settle {globals : ScopeId} {context : Context globals} {node node' : Node}
    {world : World} {worlds : World → World → Prop} {enough : Nat}
    (same : ∀ budget ≥ enough,
      SameEnd worlds (eval budget context node world) (eval budget context node' world)) :
    (Diverges context node world ∧ Diverges context node' world) ∨
      ∃ result result', Settles context node world result ∧ Settles context node' world result' ∧
        SameEnd worlds result result' := by
  by_cases ends : ∃ budget ≥ enough, InBudget (eval budget context node world)
  · obtain ⟨budget, large, ended⟩ := ends
    have agree := same budget large
    exact .inr ⟨_, _, settles_of_eval ended rfl, settles_of_eval (agree.inBudget_iff.mp ended) rfl,
      agree⟩
  · push Not at ends
    have ends' : ∀ budget ≥ enough, ¬InBudget (eval budget context node' world) :=
      fun budget large => (same budget large).inBudget_iff.not.mp (ends budget large)
    exact .inl ⟨diverges_of_forall_ge ends, diverges_of_forall_ge ends'⟩

/-! ### Turns made together -/

/-- The second world may bind the name anew. -/
theorem Apart.rebind {top : ScopeId} {name : String} {own : ScopeId → Prop}
    {held held' : Option Value} {w w' : World} (apart : Apart top name own held held' w w')
    (value : Value) : Apart top name own held (some value) w (w'.set top name value) := by
  have hidden : (w'.set top name value).without top name = w'.without top name :=
    congrArg (World.mk · w'.console) (w'.scopes.without_set_self value)
  refine ⟨⟨apart.differ.same.trans hidden.symm, apart.differ.held, ?_⟩, apart.inside, apart.stocked⟩
  exact w'.scopes.ownAt?_set_self value (apart.size ▸ apart.inside)

namespace Eval

variable {globals : ScopeId} {inner : Evaluator globals} {context : Context globals} {loop : Body}

/-- What becomes of a turn depends on how the body ends. -/
theorem repeatTurns_succ {count : Nat} {yielded : List Value} {world : World} :
    repeatTurns inner context loop (count + 1) yielded world =
      match body inner context loop world with
      | .ok value after => repeatTurns inner context loop count (value :: yielded) after
      | .error (.continued _) after => repeatTurns inner context loop count yielded after
      | .error (.broke _) after => .ok (loopValue loop yielded) after
      | .error exit after => .error exit after := by
  simp only [repeatTurns, bind, EStateM.bind, turn]
  cases body inner context loop world with
  | ok => rfl
  | error exit => cases exit <;> rfl

theorem repeatLoop_eq {count : Node} {x : Int64} {world after : World} {budget : Nat} {span : Span}
    (counted : inner context count world = .ok (.number (.int x)) after) :
    node inner budget context (.repeatLoop count loop span) world
      = repeatTurns inner context loop x.toInt.toNat [] after := by
  simp only [node, bind, EStateM.bind, number_eq counted]
  rfl

end Eval

section Turns

variable {globals : ScopeId} {context : Context globals} {counter : String} {own : ScopeId → Prop}
  {loop : Body} (programs : own globals) (owned : own context.scope)
  (unmentioned : ∀ statement ∈ loop.statements, ¬statement.Mentions counter)
include programs owned unmentioned

/-- From worlds that differ in the counter the body comes to such worlds. -/
theorem outcomes_body (budget : Nat) {held held' : Option Value} {w w' : World}
    (apart : Apart context.scope counter own held held' w w') :
    let runs := Correspondence.concealing globals context.scope counter own held held'
    runs.Outcomes () context context runs.values (Eval.body (eval budget) context loop w)
      (Eval.body (eval budget) context loop w') := by
  intro runs
  have lawful : runs.Lawful := Correspondence.concealing_lawful programs
  have same : SameBody (runs.nodes () context context) loop loop :=
    .refl _ fun statement member => ⟨rfl, rfl, owned, unmentioned statement member⟩
  exact lawful.body (lawful.eval budget) same () le_rfl w w' apart

/-- As many turns as there are numbers up to the limit. -/
theorem sameEnd_turns (budget : Nat) {limit : Int64} {turns room : Nat} (enough : turns < room)
    {current : Int64} (due : turns = (limit.toInt - current.toInt).toNat) (yielded : List Value)
    {held held' : Option Value} {w w' : World}
    (apart : Apart context.scope counter own held held' w w') :
    SameEnd (World.SameBut context.scope counter)
      (Eval.repeatTurns (eval budget) context loop turns yielded w)
      (Eval.forTurns (eval budget) context counter ⟨.int limit, .int 1⟩ loop room (.int current)
        yielded w') := by
  obtain ⟨room, rfl⟩ := Nat.exists_eq_add_of_le' (Nat.one_le_of_lt enough)
  have admits : (Eval.Count.mk (.int limit) (.int 1)).admits (.int current) = true ↔
      current.toInt < limit.toInt :=
    Eval.Count.admits_int current limit 1
  induction turns generalizing room current yielded held' w w' with
  | zero =>
    have done : (Eval.Count.mk (.int limit) (.int 1)).admits (.int current) = false := by
      rw [Bool.eq_false_iff, Ne, admits]
      omega
    rw [Eval.forTurns_done done]
    exact .value _ apart.differ.same
  | succ turns ih =>
    have further : current.toInt < limit.toInt := by omega
    have one : (1 : Int64).toInt = 1 := rfl
    -- The next number is not beyond the limit, so it is an integer.
    have fits : FitsInt64 (current.toInt + (1 : Int64).toInt) := by
      have low := current.minValue_le_toInt
      have high := limit.toInt_le
      unfold FitsInt64
      omega
    obtain ⟨next, sum, added⟩ := Number.add_int fits
    obtain ⟨room, rfl⟩ := Nat.exists_eq_add_of_le' (show 1 ≤ room by omega)
    have goOn (yielded : List Value) {v v' : World}
        (apart : Apart context.scope counter own held (some (.number (.int current))) v v') :
        SameEnd (World.SameBut context.scope counter)
          (Eval.repeatTurns (eval budget) context loop turns yielded v)
          (Eval.forTurns (eval budget) context counter ⟨.int limit, .int 1⟩ loop (room + 1)
            (.int next) yielded v') :=
      ih (by omega) yielded apart room (by omega) (Eval.Count.admits_int next limit 1)
    have outcomes := outcomes_body programs owned unmentioned budget
      (apart.rebind (.number (.int current)))
    rw [Eval.repeatTurns_succ, Eval.forTurns_due (admits.mpr further), added]
    generalize Eval.body (eval budget) context loop w = result at outcomes ⊢
    generalize Eval.body (eval budget) context loop
      (w'.set context.scope counter (.number (.int current))) = result' at outcomes ⊢
    cases outcomes with
    | ok _ worlds values =>
      obtain ⟨rfl, -⟩ := values
      exact goOn _ worlds
    | error exits =>
      cases exits with
      | continued _ worlds _ => exact goOn _ worlds
      | broke _ worlds _ => exact .value _ worlds.differ.same
      | returned _ worlds values =>
        obtain ⟨rfl, -⟩ := values
        exact .exit _ worlds.differ.same
      | failed failures =>
        obtain ⟨rfl, apart⟩ := failures
        exact .exit _ apart.differ.same
      | awaiting stops | spent stops => exact .exit _ stops.differ.same

end Turns

/-! ### The loops with their headers -/

/-- The count is evaluated once, and no function that mentions the counter comes up in it. -/
theorem apart_after_count {globals : ScopeId} {context : Context globals} {count : Node}
    {counter : String} {own : ScopeId → Prop} {held : Option Value} {world after : World}
    {budget : Nat} {value : Value} (programs : own globals)
    (owned : own context.scope) (uncounted : ¬count.Mentions counter)
    (apart : Apart context.scope counter own held held world world)
    (counted : eval budget context count world = .ok value after) :
    Apart context.scope counter own held held after after := by
  let runs := Correspondence.concealing globals context.scope counter own held held
  have lawful : runs.Lawful := Correspondence.concealing_lawful programs
  have outcomes : runs.Outcomes () context context runs.values (eval budget context count world)
      (eval budget context count world) :=
    lawful.eval budget () context context count count ⟨rfl, rfl, owned, uncounted⟩ () le_rfl world
      world apart
  rw [counted] at outcomes
  cases outcomes with
  | ok _ worlds _ => exact worlds

/-- To repeat a body a number of times or to count from zero up to the number comes to the same, if
neither the count nor the body nor any function within reach mentions the counter: both loops end,
with the same value or way out, the same console and the same scopes but for the counter in the
current one, or neither of them ends. In the worlds of a session the way up from every scope ends in the
scope of programs, so that what is within reach is within reach of the current scope
(`Scopes.Ancestry.reachesFunction_iff`). -/
theorem repeat_agrees_with_counting {globals : ScopeId} (context : Context globals) (count : Node)
    (loop : Body) (counter : Ident) (zero span span' : Span) (world : World)
    (inside : context.scope < world.scopes.size) (uncounted : ¬count.Mentions counter.name)
    (unmentioned : ∀ statement ∈ loop.statements, ¬statement.Mentions counter.name)
    (silent : ∀ f, world.scopes.ReachesFunction globals context.scope counter.name f →
      ¬f.Mentions counter.name)
    {budget : Nat} {n : Int64} {after : World}
    (counted : eval budget context count world = .ok (.number (.int n)) after) :
    let repeating : Node := .repeatLoop count loop span
    let counting : Node := .forLoop counter (.number (.int 0) zero) count none loop span'
    (Diverges context repeating world ∧ Diverges context counting world) ∨
      ∃ result result', Settles context repeating world result ∧
        Settles context counting world result' ∧
        SameEnd (World.SameBut context.scope counter.name) result result' := by
  intro repeating counting
  let own (id : ScopeId) : Prop :=
    world.scopes.Reached globals context.scope counter.name id ∨ world.scopes.size ≤ id
  have programs : own globals := .inl .programs
  have owned : own context.scope := .inl .start
  have apart : Apart context.scope counter.name own _ _ after after :=
    apart_after_count programs owned uncounted
      ⟨⟨rfl, rfl, rfl⟩, inside, stocked_of_reach silent⟩ counted
  have same : ∀ more ≥ max budget (n.toInt.toNat + 1) + 1,
      SameEnd (World.SameBut context.scope counter.name) (eval more context repeating world)
        (eval more context counting world) := by
    intro more large
    obtain ⟨more, rfl⟩ := Nat.exists_eq_add_of_le' (Nat.one_le_of_lt large)
    obtain ⟨least, enough⟩ := max_le_iff.mp (Nat.le_of_succ_le_succ large)
    obtain ⟨room, rfl⟩ := Nat.exists_eq_add_of_le' (Nat.one_le_of_lt enough)
    have counted' : eval (room + 1) context count world = .ok (.number (.int n)) after :=
      eval_of_le least (by simp [InBudget]) counted
    have first : eval (room + 1) context (.number (.int 0) zero) world
        = .ok (.number (.int 0)) world := rfl
    have steps : Eval.stride (eval (room + 1)) context none after
        = .ok (.number (.int 1)) after := rfl
    have repeats : eval (room + 2) context repeating world
        = Eval.repeatTurns (eval (room + 1)) context loop n.toInt.toNat [] after :=
      Eval.repeatLoop_eq counted'
    have counts : eval (room + 2) context counting world
        = Eval.forTurns (eval (room + 1)) context counter.name ⟨.int n, .int 1⟩ loop (room + 1)
            (.int 0) [] after :=
      Eval.forLoop_eq (room + 1) first counted' steps
    rw [repeats, counts]
    exact sameEnd_turns programs owned unmentioned (room + 1) enough (by simp) [] apart
  exact diverge_or_settle same

/-- The body calls a function and binds a name that the function reads. The scope binds `i` already,
to a function that mentions it; the counting loop loses it. -/
theorem repeat_agrees_with_counting_called :
    let number (x : Int64) : Node := .number (.int x) default
    let k : Node := .variable ⟨"k", default⟩
    let self : Value := .function ⟨some "i", [], .inline (.variable ⟨"i", default⟩), 0⟩
    let f : Value := .function ⟨some "f", [], .inline k, 0⟩
    let world : World := ⟨#[⟨[("i", self), ("k", .number (.int 7)), ("f", f)], none⟩],
      .ofInput [] .none true⟩
    let context : Context := ⟨0, [.program]⟩
    let loop : Body := .inline (.assign ⟨"k", default⟩ (.binary
      (.call (.variable ⟨"f", default⟩) [] default) .plus (number 1) default) default)
    let i : Ident := ⟨"i", default⟩
    let repeating : Node := .repeatLoop (number 2) loop default
    let counting : Node := .forLoop i (number 0) (number 2) none loop default
    0 < world.scopes.size ∧ ¬(number 2).Mentions "i" ∧
      (∀ statement ∈ loop.statements, ¬statement.Mentions "i") ∧
      (∀ f, world.scopes.ReachesFunction 0 0 "i" f → ¬f.Mentions "i") ∧
      eval 1 context (number 2) world = .ok (.number (.int 2)) world ∧
      (∃ after, eval 9 context repeating world
        = .ok (.list [.number (.int 8), .number (.int 9)]) after) ∧
      ((Diverges context repeating world ∧ Diverges context counting world) ∨
        ∃ result result', Settles context repeating world result ∧
          Settles context counting world result' ∧
          SameEnd (World.SameBut 0 "i") result result') := by
  intro number k self f world context loop i repeating counting
  have leaf {node : Node} (names : "i" ∉ node.names) (alone : node.parts = []) :
      ¬node.Mentions "i" :=
    Node.not_mentions_iff.mpr ⟨names, by simp [alone]⟩
  have literal (x : Int64) : ¬(number x).Mentions "i" := leaf List.not_mem_nil rfl
  have access {name : String} (different : "i" ≠ name) :
      ¬(Node.variable ⟨name, default⟩).Mentions "i" :=
    leaf (by simpa [Node.names] using different) rfl
  have unmentioned : ∀ statement ∈ loop.statements, ¬statement.Mentions "i" := by
    refine List.forall_mem_singleton.mpr (Node.not_mentions_iff.mpr ⟨by simp [Node.names], ?_⟩)
    refine List.forall_mem_singleton.mpr (Node.not_mentions_iff.mpr ⟨List.not_mem_nil, ?_⟩)
    refine List.forall_mem_cons.mpr ⟨?_, List.forall_mem_singleton.mpr (literal 1)⟩
    refine Node.not_mentions_iff.mpr ⟨List.not_mem_nil, ?_⟩
    exact List.forall_mem_singleton.mpr (access (by decide))
  have silent : ∀ f, world.scopes.ReachesFunction 0 0 "i" f → ¬f.Mentions "i" := by
    rintro g ⟨id, scope, -, here, binding, bound, seen, inside⟩ mentions
    obtain ⟨within, rfl⟩ := Array.getElem?_eq_some_iff.mp here
    have one : id < 1 := within
    interval_cases id
    have cases : binding = ("i", self) ∨ binding = ("k", .number (.int 7)) ∨ binding = ("f", f) := by
      simpa [world] using bound
    rcases cases with rfl | rfl | rfl
    · exact seen rfl rfl
    · cases inside
    · cases inside
      rcases mentions with param | ⟨statement, member, mentions⟩
      · simp at param
      · exact access (by decide) (List.mem_singleton.mp member ▸ mentions)
  refine ⟨by decide, literal 2, unmentioned, silent, rfl, ⟨_, rfl⟩, ?_⟩
  exact repeat_agrees_with_counting context (number 2) loop i default default default world
    (by decide) (literal 2) unmentioned silent (show eval 1 context (number 2) world = _ from rfl)

end Primer
