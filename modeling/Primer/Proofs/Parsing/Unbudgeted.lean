import Primer.Proofs.Parsing.Diagonal

/-!
# The grammar without budgets

A loop whose turns pass a token comes out the same for every budget of enough tokens, and so do
expressions. Without its budget a loop is a fixed point of its turn, and an expression of the level of
nesting that `expressionOver` adds: these are the equations of the grammar, in which no budget is left.
-/

namespace Primer

namespace Grammar

open Simulation

/-- A loop with a turn for each token there is. -/
def unbudgeted {α : Type} (loop : Nat → Parser α) : Parser α := do
  loop (← get).length

variable {α : Type} {post : α → α → Prop}

section Loop

variable {ι : Type} (loop : Nat → ι → Parser α) (turn : (ι → Parser α) → ι → Parser α)
  (succ : ∀ budget i, loop (budget + 1) i = turn (loop budget) i)
  (nil : ∀ others i, turn others i [] = loop 0 i [])
  (last : ∀ i, reflexive.Related 0 0 post (loop 0 i) (loop 0 i))
  (passes : ∀ {n others others'}, (∀ i, reflexive.Related n 0 post (others i) (others' i)) →
    ∀ i, reflexive.Related (n + 1) 0 post (turn others i) (turn others' i))
include succ nil last passes

/-- Every budget of enough tokens gives the same. -/
theorem loop_related {budget budget' n : Nat} (enough : n ≤ budget) (enough' : n ≤ budget')
    (i : ι) : reflexive.Related n 0 post (loop budget i) (loop budget' i) := by
  have empty (budget : Nat) (i : ι) : loop budget i [] = loop 0 i [] := by
    cases budget with
    | zero => rfl
    | succ budget => rw [succ, nil]
  -- A turn passes a token, so the turns to come need to agree on one token fewer.
  induction n generalizing budget budget' i with
  | zero =>
    intro tokens tokens' same bound
    have outcomes := last i tokens tokens' same bound
    cases same with
    | nil => rwa [empty, empty budget']
    | cons => exact absurd bound (by simp)
  | succ n ih =>
    obtain ⟨budget, rfl⟩ := Nat.exists_eq_add_of_le' (Nat.one_le_of_lt enough)
    obtain ⟨budget', rfl⟩ := Nat.exists_eq_add_of_le' (Nat.one_le_of_lt enough')
    rw [succ, succ]
    exact passes
      (ih (Nat.le_of_succ_le_succ enough) (Nat.le_of_succ_le_succ enough')) i

/-- Without a budget a loop is one turn and the loop again. -/
theorem unbudgeted_eq (equal : ∀ a a', post a a' → a = a') (i : ι) :
    unbudgeted (loop · i) = turn (fun i => unbudgeted (loop · i)) i := by
  funext tokens
  cases tokens with
  | nil => exact (nil _ i).symm
  | cons lexeme rest =>
    -- The loop with a turn per token is, on the tokens behind, as good as one with a fresh count.
    have others (i : ι) :
        reflexive.Related rest.length 0 post (loop rest.length i) (unbudgeted (loop · i)) := by
      intro left left' same bound
      obtain rfl := diagonal_tokens same
      exact loop_related loop turn succ nil last passes bound (Nat.le_refl _) i left left same
        (Nat.le_refl _)
    have outcomes := passes others i _ _ (reflexive_tokens (lexeme :: rest)) (Nat.le_refl _)
    rw [← succ] at outcomes
    exact eq_of_outcomes equal outcomes

end Loop

private theorem expressions_related {n : Nat} : reflexive.Inners n expression expression :=
  reflexive_lawful.expression

private theorem eq_of_forall₂ (nodes nodes' : List Node)
    (same : List.Forall₂ reflexive.nodes nodes nodes') : nodes = nodes' :=
  (diagonal_nodes same).1

private theorem eq_of_listed (result result' : List Node × Span)
    (same : Inners.listed reflexive result result') : result = result' :=
  Prod.ext (diagonal_nodes same.1).1 same.2

private theorem eq_of_branched (result result' : Node × Body × Branches)
    (same : Inners.branched reflexive result result') : result = result' :=
  Prod.ext same.1.1 (Prod.ext same.2.1.1 same.2.2.1)

/-- The statements up to the end of a block. -/
def allStatements : Parser (List Node) :=
  unbudgeted (statements expression)

theorem allStatements_eq : allStatements = statementsOver expression allStatements :=
  unbudgeted_eq (fun budget _ => statements expression budget)
    (fun others _ => statementsOver expression (others ()))
    (fun budget _ => statements_succ expression budget) (fun _ _ => rfl) (fun _ => .pure .nil)
    (fun others _ => expressions_related.statementsOver reflexive_lawful (others ()))
    eq_of_forall₂ ()

/-- Expressions up to a closing token. -/
def allExpressions (closing : Token) : Parser (List Node × Span) :=
  unbudgeted (expressions expression closing)

theorem allExpressions_eq (closing : Token) :
    allExpressions closing = expressionsOver expression closing (allExpressions closing) :=
  unbudgeted_eq (fun budget _ => expressions expression closing budget)
    (fun others _ => expressionsOver expression closing (others ()))
    (fun budget _ => expressions_succ expression budget closing) (fun _ _ => rfl)
    (fun _ => .expectedExpression reflexive_lawful)
    (fun others _ => expressions_related.expressionsOver reflexive_lawful (others ()))
    eq_of_listed ()

/-- The branches of a conditional. -/
def allBranches : Parser (Node × Body × Branches) :=
  unbudgeted (branches expression)

theorem allBranches_eq : allBranches = branchesOver expression allBranches :=
  unbudgeted_eq (fun budget _ => branches expression budget)
    (fun others _ => branchesOver expression (others ()))
    (fun budget _ => branches_succ expression budget) (fun _ _ => rfl)
    (fun _ => .expectedExpression reflexive_lawful)
    (fun others _ => expressions_related.branchesOver reflexive_lawful (others ()))
    eq_of_branched ()

/-- The parameters of a function. -/
def allParams : Parser (List Ident) :=
  unbudgeted params

theorem allParams_eq : allParams = paramsOver allParams :=
  unbudgeted_eq (fun budget _ => params budget) (fun others _ => paramsOver (others ()))
    (fun budget _ => params_succ budget) (fun _ _ => rfl) (fun _ => reflexive_lawful.params 0)
    (fun others _ => reflexive_lawful.paramsOver (others ()))
    (fun _ _ same => List.forall₂_eq_eq_eq ▸ same) ()

/-- The operators and calls after an operand. -/
def allContinuation (precedence : Precedence) (left : Node) : Parser Node :=
  unbudgeted (continuation expression precedence · left)

theorem allContinuation_eq (precedence : Precedence) (left : Node) :
    allContinuation precedence left
      = continuationOver expression precedence (allContinuation precedence) left :=
  unbudgeted_eq (continuation expression precedence) (continuationOver expression precedence)
    (fun budget node => continuation_succ expression budget precedence node)
    (fun _ _ => by cases precedence <;> rfl) (fun _ => .pure ⟨rfl, trivial⟩)
    (fun others node => expressions_related.continuationOver reflexive_lawful precedence
      (by rintro node _ ⟨rfl, -⟩; exact others node) ⟨rfl, trivial⟩)
    (fun _ _ same => same.1) left

private theorem within_related (n : Nat) :
    reflexive.Inners n (expressionWithin n) expression := by
  intro precedence left left' same bound
  obtain rfl := diagonal_tokens same
  exact reflexive_lawful.expressionWithin bound (Nat.le_refl _) precedence left left same
    (Nat.le_refl _)

theorem expression_eq (precedence : Option Precedence) :
    expression precedence = (do
      let first ← primary expression precedence
      allContinuation (precedence.getD .lowest) first) := by
  funext tokens
  cases tokens with
  | nil => rfl
  | cons lexeme rest =>
    exact eq_of_outcomes (fun _ _ same => same.1)
      ((within_related rest.length).expressionOver reflexive_lawful precedence _ _
        (reflexive_tokens (lexeme :: rest)) (Nat.le_refl _))

/-! The constructs around the loops. -/

theorem block_eq : block expression = (do
    let start := (← Parser.span).start
    Parser.skipNewlines
    let nodes ← allStatements
    return ⟨nodes, blockSpan start nodes⟩) :=
  rfl

theorem expressionList_eq (closing : Token) : expressionList expression closing = (do
    if (← Parser.current) = closing then
      let stop ← Parser.span
      Parser.step
      return ([], stop)
    else allExpressions closing) :=
  rfl

theorem conditional_eq : conditional expression = (do
    discard (Parser.expect (.keyword .ifWord))
    let (condition, first, others) ← allBranches
    return .conditional condition first others
      (condition.span.through (others.lastBody first).span)) :=
  rfl

theorem functionParams_eq : functionParams = (do
    match ← Parser.current with
    | .ident _ => allParams
    | _ => return []) :=
  rfl

/-- The statements behind newlines make a block. -/
theorem run_block {tokens left : Tokens} {nodes : List Node}
    (parsed : allStatements tokens.skipNewlines = .ok nodes left) :
    block expression tokens = .ok ⟨nodes, blockSpan tokens.span.start nodes⟩ left := by
  rw [block, Parser.run_span, Parser.run_skipNewlines, Parser.run_get]
  exact Parser.run_bind_ok parsed

theorem complete_statement_eq : complete statement = statement expression := by
  funext tokens
  exact eq_of_outcomes (fun _ _ same => same.1)
    ((within_related tokens.length).statement reflexive_lawful _ _ (reflexive_tokens tokens)
      (Nat.le_refl _))

theorem complete_block_eq : complete block = block expression := by
  funext tokens
  have equal (first second : Block) (same : reflexive.blocks first second) : first = second := by
    have bodies := same.2.1
    simp only [Block.toBody, Body.block.injEq] at bodies
    cases first
    simp_all
  exact eq_of_outcomes equal
    ((within_related tokens.length).block reflexive_lawful _ _ (reflexive_tokens tokens)
      (Nat.le_refl _))

end Grammar

end Primer
