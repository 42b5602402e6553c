import Primer.Proofs.Parsing.Completion
import Primer.Proofs.Parsing.Grammatical

/-!
# Operator precedence

Expressions in layers, from `and` and `or` down to names and literals: each layer has its operators,
and its operands come from the next. The parser knows nothing of layers. It goes on with an operand
as long as operators bind more tightly than the one before, and asks for operands on a scale of
binding strengths.

## Main result

`expression_of_derivation`: however an expression is derived in layers, the parser reads all of it
and gives the tree of the derivation.

## Proof strategy

An operand of a layer is read the same way behind every operator up to a certain strength, its
`floor`, and before every token up to another, its `ceiling`: it is read first, and then what goes
on behind it. A chain of operators of one layer is built on its left operand, so the next operator
is met by a parser that stands where it would stand behind the operand alone. A right operand is
asked for at the strength of its operator, which the next layer can do with, and ends where the
chain goes on.
-/

namespace Primer

/-- The layers of expressions, the one that binds most loosely first. -/
inductive Level where
  | logic | negation | comparison | sum | product | factor | power | call | atom
  deriving DecidableEq

namespace Level

/-- The layer that operands come from. -/
def tighter : Level → Level
  | logic => negation
  | negation => comparison
  | comparison => sum
  | sum => product
  | product => factor
  | factor => power
  | power => call
  | call | atom => atom

/-- The operators of a layer that group to the left. -/
def operators : Level → List Token
  | logic => [.keyword .andWord, .keyword .orWord]
  | comparison =>
    [.equal, .notEqual, .less, .lessEqual, .greater, .greaterEqual, .keyword .isWord]
  | sum => [.plus, .minus]
  | product => [.times, .divide]
  | negation | factor | power | call | atom => []

end Level

/-- What is derived: an expression of a layer, or expressions between commas. -/
inductive Stratum where
  | expression (level : Level) (node : Node)
  | elements (nodes : List Node)
  | arguments (nodes : List Node)

/-- The tokens are derived in layers, and the tree is that of the derivation. Parentheses leave no
trace in it. -/
inductive Derives : Tokens → Stratum → Prop
  | int {value : Int64} {here : Span} :
      Derives [⟨.int value, here⟩] (.expression .atom (.number (.int value) here))
  | float {value : Float} {here : Span} :
      Derives [⟨.float value, here⟩] (.expression .atom (.number (.float value) here))
  | string {value : String} {here : Span} :
      Derives [⟨.string value, here⟩] (.expression .atom (.string value here))
  | access {name : String} {here : Span} :
      Derives [⟨.ident name, here⟩] (.expression .atom (.variable ⟨name, here⟩))
  | list {first last : Span} {w : Tokens} {nodes : List Node}
      (inside : Derives w (.arguments nodes)) :
      Derives (⟨.leftBracket, first⟩ :: (w ++ [⟨.rightBracket, last⟩]))
        (.expression .atom (.list nodes (first.through last)))
  | parens {first last : Span} {w : Tokens} {node : Node}
      (inside : Derives w (.expression .logic node)) :
      Derives (⟨.leftParen, first⟩ :: (w ++ [⟨.rightParen, last⟩])) (.expression .atom node)
  | call {first last : Span} {w w' : Tokens} {callee : Node} {arguments : List Node}
      (before : Derives w (.expression .call callee)) (inside : Derives w' (.arguments arguments)) :
      Derives (w ++ ⟨.leftParen, first⟩ :: (w' ++ [⟨.rightParen, last⟩]))
        (.expression .call (.call callee arguments
          (callee.span.through (arguments.getLast?.getD callee).span)))
  | power {here : Span} {w w' : Tokens} {base exponent : Node}
      (before : Derives w (.expression .call base))
      (behind : Derives w' (.expression .factor exponent)) :
      Derives (w ++ ⟨.power, here⟩ :: w')
        (.expression .power (.binary base .power exponent (base.span.through exponent.span)))
  | sign {operator : Token} {here : Span} {w : Tokens} {operand : Node}
      (known : operator = .plus ∨ operator = .minus)
      (behind : Derives w (.expression .factor operand)) :
      Derives (⟨operator, here⟩ :: w)
        (.expression .factor (.unary operator operand (here.through operand.span)))
  | negation {here : Span} {w : Tokens} {operand : Node}
      (behind : Derives w (.expression .negation operand)) :
      Derives (⟨.keyword .notWord, here⟩ :: w)
        (.expression .negation
          (.unary (.keyword .notWord) operand (here.through operand.span)))
  | chain {level : Level} {operator : Token} {here : Span} {w w' : Tokens} {left right : Node}
      (known : operator ∈ level.operators) (before : Derives w (.expression level left))
      (behind : Derives w' (.expression level.tighter right)) :
      Derives (w ++ ⟨operator, here⟩ :: w')
        (.expression level (.binary left operator right (left.span.through right.span)))
  | operand {level : Level} {w : Tokens} {node : Node}
      (inside : Derives w (.expression level.tighter node)) : Derives w (.expression level node)
  | element {w : Tokens} {node : Node} (inside : Derives w (.expression .logic node)) :
      Derives w (.elements [node])
  | elements {comma : Span} {w w' : Tokens} {node : Node} {nodes : List Node}
      (first : Derives w (.expression .logic node)) (others : Derives w' (.elements nodes)) :
      Derives (w ++ ⟨.comma, comma⟩ :: w') (.elements (node :: nodes))
  | noArgument : Derives [] (.arguments [])
  | arguments {w : Tokens} {nodes : List Node} (inside : Derives w (.elements nodes)) :
      Derives w (.arguments nodes)

/-! ### Layers on the scale of strengths -/

namespace Level

/-- The greatest strength of an operator in front of an operand of the layer. -/
def floor : Level → Nat
  | logic => 0
  | negation | comparison => 1
  | sum => 2
  | product => 3
  | factor | power => 5
  | call => 6
  | atom => 7

/-- The greatest strength of a token behind it. -/
def ceiling : Level → Nat
  | logic | negation => 1
  | comparison => 2
  | sum => 3
  | product => 4
  | factor | power => 5
  | call | atom => 7

theorem floor_le_tighter (level : Level) : level.floor ≤ level.tighter.floor := by
  cases level <;> decide

theorem ceiling_le_tighter (level : Level) : level.ceiling ≤ level.tighter.ceiling := by
  cases level <;> decide

/-- The operators of a layer are as strong as what may stand behind its operands, stronger than what
may stand before them, and not too strong for operands of the next. -/
theorem rank_of_mem {level : Level} {operator : Token} (known : operator ∈ level.operators) :
    operator.precedence.rank = level.ceiling ∧ level.floor < level.ceiling ∧
      level.ceiling ≤ level.tighter.floor := by
  revert operator
  cases level <;> decide

theorem ne_of_mem {level : Level} {operator : Token} (known : operator ∈ level.operators) :
    operator ≠ .power ∧ operator ≠ .leftParen ∧ operator ≠ .assign := by
  revert operator
  cases level <;> decide

end Level

/-- The operator before an operand of the layer and the token behind it leave it whole. Where no
operator stands before it, a name must not be taken for one that is assigned to. -/
structure Level.Fits (level : Level) (precedence : Option Precedence) (rest : Tokens) : Prop where
  before : (precedence.getD .lowest).rank ≤ level.floor
  behind : rest.current.precedence.rank ≤ level.ceiling
  access : precedence = none → rest.current ≠ .assign

namespace Level.Fits

variable {level : Level} {precedence : Option Precedence} {rest : Tokens}

theorem tighter (fits : level.Fits precedence rest) : level.tighter.Fits precedence rest :=
  ⟨Nat.le_trans fits.before level.floor_le_tighter,
    Nat.le_trans fits.behind level.ceiling_le_tighter, fits.access⟩

/-- Behind an operator. -/
theorem operand {precedence : Precedence} (before : precedence.rank ≤ level.floor)
    (behind : rest.current.precedence.rank ≤ level.ceiling) :
    level.Fits (some precedence) rest :=
  ⟨before, behind, nofun⟩

end Level.Fits

/-! ### One step of the parser -/

namespace Parser

variable {α : Type} (token : Token) (more : token ≠ .endOfInput) (here : Span) (rest : Tokens)
include more

theorem run_step_at (f : Unit → Parser α) : (step >>= f) (⟨token, here⟩ :: rest) = f () rest :=
  run_bind_ok (run_step_cons more rest)

variable (exact : ∀ value, token ≠ .float value)
include exact

theorem run_expect_at (f : Span → Parser α) :
    (expect token >>= f) (⟨token, here⟩ :: rest) = f here rest :=
  run_bind_ok (run_expect_cons rfl more exact rest)

theorem run_pass_at (f : Unit → Parser α) :
    (discard (expect token) >>= f) (⟨token, here⟩ :: rest) = f () rest :=
  run_pass rfl more exact rest f

end Parser

namespace Grammar

variable {precedence : Option Precedence} {strength : Precedence} {tokens rest : Tokens}

/-- An expression ends before a token that does not bind more tightly than the operator before it.
-/
theorem allContinuation_end {node : Node}
    (loose : rest.current.precedence.rank ≤ strength.rank) :
    allContinuation strength node rest = .ok node rest :=
  allContinuation_stop node (by simpa [Precedence.looser] using loose)

/-- An operator that binds more tightly takes its right operand, and the whole is gone on with. -/
theorem allContinuation_infix {operator : Token} {here : Span} {left right : Node}
    (binds : strength.rank < operator.precedence.rank) (noCall : operator ≠ .leftParen)
    (parsed : expression (some (if operator = .power then .unary else operator.precedence)) tokens
      = .ok right rest) :
    allContinuation strength left (⟨operator, here⟩ :: tokens)
      = allContinuation strength
          (.binary left operator right (left.span.through right.span)) rest := by
  have more : operator ≠ .endOfInput := by
    rintro rfl
    exact absurd binds (Nat.not_lt_zero _)
  have joined : binary expression left (⟨operator, here⟩ :: tokens)
      = .ok (.binary left operator right (left.span.through right.span)) rest := by
    rw [binary, Parser.run_current]
    exact (Parser.run_step_at operator more here tokens _).trans (Parser.run_bind_ok parsed)
  exact allContinuation_binary joined (decide_eq_true binds) noCall

/-- So does a call. -/
theorem allContinuation_arguments {first last : Span} {callee : Node} {arguments : List Node}
    (binds : strength.rank < Precedence.call.rank)
    (parsed : expressionList expression .rightParen tokens = .ok (arguments, last) rest) :
    allContinuation strength callee (⟨.leftParen, first⟩ :: tokens)
      = allContinuation strength (.call callee arguments
          (callee.span.through (arguments.getLast?.getD callee).span)) rest := by
  have called : call expression callee (⟨.leftParen, first⟩ :: tokens)
      = .ok (.call callee arguments
          (callee.span.through (arguments.getLast?.getD callee).span)) rest := by
    rw [call, Parser.run_pass_at .leftParen nofun first tokens nofun, Parser.run_bind_ok parsed]
    rfl
  exact allContinuation_call rfl (decide_eq_true binds) called

theorem expression_of_primary {node : Node}
    (parsed : primary expression precedence tokens = .ok node rest) :
    expression precedence tokens = allContinuation (precedence.getD .lowest) node rest := by
  rw [expression_eq, Parser.run_bind_ok parsed]

theorem primary_sign {operator : Token} {here : Span} {operand : Node}
    (known : operator ∈ Token.signs)
    (parsed : expression (some (if operator = .keyword .notWord then .logical else .unary)) tokens
      = .ok operand rest) :
    primary expression precedence (⟨operator, here⟩ :: tokens)
      = .ok (.unary operator operand (here.through operand.span)) rest := by
  have more : operator ≠ .endOfInput := by
    rintro rfl
    exact absurd known (by decide)
  have read : unary expression (⟨operator, here⟩ :: tokens)
      = .ok (.unary operator operand (here.through operand.span)) rest := by
    rw [unary, Parser.run_span, Parser.run_current]
    exact (Parser.run_step_at operator more here tokens _).trans (Parser.run_bind_ok parsed)
  simp only [Token.signs, List.mem_cons, List.not_mem_nil, or_false] at known
  rcases known with rfl | rfl | rfl
  all_goals exact read

theorem primary_access {name : String} {here : Span}
    (access : precedence = none → rest.current ≠ .assign) :
    primary expression precedence (⟨.ident name, here⟩ :: rest)
      = .ok (.variable ⟨name, here⟩) rest := by
  have choice : (precedence.isNone && decide (rest.current = .assign)) = false := by
    cases precedence with
    | none => simpa using access rfl
    | some => rfl
  refine (run_named precedence rfl rest).trans ?_
  rw [choice]
  rfl

theorem primary_parens {first last : Span} {node : Node}
    (parsed : expression none tokens = .ok node (⟨.rightParen, last⟩ :: rest)) :
    primary expression precedence (⟨.leftParen, first⟩ :: tokens) = .ok node rest := by
  show (Parser.step >>= fun _ => expression none >>= fun node =>
    discard (Parser.expect .rightParen) >>= fun _ => pure node) (⟨.leftParen, first⟩ :: tokens) = _
  rw [Parser.run_step_at .leftParen nofun first tokens, Parser.run_bind_ok parsed,
    Parser.run_pass_at .rightParen nofun last rest nofun]
  rfl

theorem primary_list {first last : Span} {nodes : List Node}
    (parsed : expressionList expression .rightBracket tokens = .ok (nodes, last) rest) :
    primary expression precedence (⟨.leftBracket, first⟩ :: tokens)
      = .ok (.list nodes (first.through last)) rest := by
  show list expression (⟨.leftBracket, first⟩ :: tokens) = _
  rw [list, Parser.run_expect_at .leftBracket nofun first tokens nofun, Parser.run_bind_ok parsed]
  rfl

/-! Lists end at the bracket that closes them. -/

section Lists

variable {closing : Token} {last : Span}
  (close : closing = .rightParen ∨ closing = .rightBracket)

theorem elementEnd_comma {comma : Span} {others : Parser (List Node × Span)} {node : Node}
    {nodes : List Node} (parsed : others tokens = .ok (nodes, last) rest) :
    elementEnd closing others node (⟨.comma, comma⟩ :: tokens)
      = .ok (node :: nodes, last) rest := by
  have more : Token.comma ≠ .endOfInput := by decide
  rw [elementEnd, Parser.run_current]
  refine (Parser.run_step_at .comma more comma tokens _).trans ?_
  rw [Parser.run_bind_ok parsed]
  rfl

include close

theorem elementEnd_closing {others : Parser (List Node × Span)} {node : Node} :
    elementEnd closing others node (⟨closing, last⟩ :: rest) = .ok ([node], last) rest := by
  rcases close with rfl | rfl <;> rfl

theorem expressionList_none :
    expressionList expression closing (⟨closing, last⟩ :: rest) = .ok ([], last) rest := by
  rcases close with rfl | rfl <;> rfl

/-- No expression starts with a bracket that closes. -/
theorem current_ne_closing {node : Node}
    (parsed : expression precedence tokens = .ok node rest) : tokens.current ≠ closing := by
  intro here
  obtain ⟨first, left, read, -⟩ := Parser.run_bind_eq_ok.mp (expression_eq precedence ▸ parsed)
  rw [primary, Parser.run_span, Parser.run_current, here] at read
  rcases close with rfl | rfl
  all_goals cases read

theorem expressionList_some {nodes : List Node}
    (parsed : allExpressions closing tokens = .ok (nodes, last) rest) :
    expressionList expression closing tokens = .ok (nodes, last) rest := by
  have starts : tokens.current ≠ closing := by
    obtain ⟨node, left, first, -⟩ := Parser.run_bind_eq_ok.mp (allExpressions_eq closing ▸ parsed)
    exact current_ne_closing close first
  rw [expressionList, Parser.run_current, if_neg starts]
  exact parsed

end Lists

end Grammar

/-! ### Whole derivations -/

namespace Stratum

open Grammar

/-- The parser reads what is derived: an expression up to what goes on behind it, and expressions
between commas up to the bracket that closes them. -/
def Read (w : Tokens) : Stratum → Prop
  | .expression level node => ∀ (precedence : Option Precedence) (rest : Tokens),
      level.Fits precedence rest → Grammar.expression precedence (w ++ rest)
        = allContinuation (precedence.getD .lowest) node rest
  | .elements nodes => ∀ (closing : Token) (last : Span) (rest : Tokens),
      closing = .rightParen ∨ closing = .rightBracket →
        allExpressions closing (w ++ ⟨closing, last⟩ :: rest) = .ok (nodes, last) rest
  | .arguments nodes => ∀ (closing : Token) (last : Span) (rest : Tokens),
      closing = .rightParen ∨ closing = .rightBracket →
        expressionList Grammar.expression closing (w ++ ⟨closing, last⟩ :: rest)
          = .ok (nodes, last) rest

variable {level : Level} {node : Node} {w rest : Tokens}

/-- An operand is read up to its end. -/
theorem Read.ends (read : (expression level node).Read w) {precedence : Option Precedence}
    (fits : level.Fits precedence rest)
    (loose : rest.current.precedence.rank ≤ (precedence.getD .lowest).rank) :
    Grammar.expression precedence (w ++ rest) = .ok node rest := by
  rw [read precedence rest fits]
  exact allContinuation_end loose

/-- An expression of the outermost layer is read up to a token that is no operator. -/
theorem Read.whole (read : (expression .logic node).Read w)
    (loose : rest.current.precedence = .lowest) (access : rest.current ≠ .assign) :
    Grammar.expression none (w ++ rest) = .ok node rest := by
  have none : rest.current.precedence.rank = 0 := by rw [loose]; rfl
  refine read.ends ⟨Nat.le_refl 0, ?_, fun _ => access⟩ (Nat.le_of_eq none)
  rw [none]
  exact Nat.zero_le _

end Stratum

open Grammar Stratum in
/-- By induction on the derivation. -/
theorem Derives.read {w : Tokens} {stratum : Stratum} (derived : Derives w stratum) :
    stratum.Read w := by
  induction derived with
  | int | float | string =>
    intro precedence rest _
    exact expression_of_primary rfl
  | access =>
    intro precedence rest fits
    exact expression_of_primary (primary_access fits.access)
  | @list first last w nodes _ inside =>
    intro precedence rest _
    have parsed := inside .rightBracket last rest (.inr rfl)
    rw [List.cons_append, List.append_assoc]
    exact expression_of_primary (primary_list parsed)
  | @parens first last w node _ inside =>
    intro precedence rest _
    have parsed : Grammar.expression none (w ++ ⟨.rightParen, last⟩ :: rest) = .ok node _ :=
      inside.whole rfl nofun
    rw [List.cons_append, List.append_assoc]
    exact expression_of_primary (primary_parens parsed)
  | @call first last w w' callee arguments _ _ before inside =>
    intro precedence rest fits
    have callable : Level.call.Fits precedence
        (⟨.leftParen, first⟩ :: (w' ++ ⟨.rightParen, last⟩ :: rest)) :=
      ⟨fits.before, Nat.le_refl _, nofun⟩
    have parsed := inside .rightParen last rest (.inl rfl)
    have binds : (precedence.getD .lowest).rank < Precedence.call.rank :=
      Nat.lt_succ_of_le fits.before
    have apart : w ++ ⟨.leftParen, first⟩ :: (w' ++ [⟨.rightParen, last⟩]) ++ rest
        = w ++ ⟨.leftParen, first⟩ :: (w' ++ ⟨.rightParen, last⟩ :: rest) := by simp
    rw [apart, before precedence _ callable]
    exact allContinuation_arguments binds parsed
  | @power here w w' base exponent _ _ before behind =>
    intro precedence rest fits
    -- The exponent is asked for at the strength of a sign, below that of the power itself: so it
    -- may start with a sign, and a power behind it belongs to it.
    have based : Level.call.Fits precedence (⟨.power, here⟩ :: (w' ++ rest)) :=
      ⟨Nat.le_succ_of_le fits.before, Nat.le_succ _, nofun⟩
    have raised : Level.factor.Fits (some .unary) rest := .operand (Nat.le_refl _) fits.behind
    rw [List.append_assoc, List.cons_append, before precedence _ based]
    exact allContinuation_infix (Nat.lt_succ_of_le fits.before) nofun
      (behind.ends raised fits.behind)
  | @sign operator here w operand known _ behind =>
    intro precedence rest fits
    have signed : Level.factor.Fits (some .unary) rest := .operand (Nat.le_refl _) fits.behind
    have parsed := behind.ends signed fits.behind
    rcases known with rfl | rfl
    all_goals exact expression_of_primary (primary_sign (by decide) parsed)
  | @negation here w operand _ behind =>
    intro precedence rest fits
    have negated : Level.negation.Fits (some .logical) rest := .operand (Nat.le_refl _) fits.behind
    have parsed := behind.ends negated fits.behind
    exact expression_of_primary (primary_sign (by decide) parsed)
  | @chain level operator here w w' left right known _ _ before behind =>
    intro precedence rest fits
    obtain ⟨rank, stronger, suits⟩ := Level.rank_of_mem known
    obtain ⟨noPower, noCall, noAssign⟩ := Level.ne_of_mem known
    -- The left operand is of this layer and is met where the whole chain is; the right one is of
    -- the next and ends before an operator of this layer, which is not stronger than the last.
    have leftmost : level.Fits precedence (⟨operator, here⟩ :: (w' ++ rest)) :=
      ⟨fits.before, Nat.le_of_eq rank, fun _ => noAssign⟩
    have rightmost : level.tighter.Fits (some operator.precedence) rest :=
      .operand (rank ▸ suits) fits.tighter.behind
    have parsed := behind.ends rightmost (rank ▸ fits.behind)
    rw [List.append_assoc, List.cons_append, before precedence _ leftmost]
    refine allContinuation_infix ?_ noCall ?_
    · rw [rank]
      exact Nat.lt_of_le_of_lt fits.before stronger
    · rw [if_neg noPower]
      exact parsed
  | operand _ inside =>
    intro precedence rest fits
    exact inside precedence rest fits.tighter
  | @element w node _ inside =>
    intro closing last rest close
    have parsed : Grammar.expression none (w ++ ⟨closing, last⟩ :: rest)
        = .ok node (⟨closing, last⟩ :: rest) := by
      rcases close with rfl | rfl <;> exact inside.whole rfl nofun
    rw [allExpressions_eq, expressionsOver, Parser.run_bind_ok parsed]
    exact elementEnd_closing close
  | @elements comma w w' node nodes _ _ first others =>
    intro closing last rest close
    have parsed : Grammar.expression none (w ++ ⟨.comma, comma⟩ :: (w' ++ ⟨closing, last⟩ :: rest))
        = .ok node _ := first.whole rfl nofun
    rw [List.append_assoc, List.cons_append, allExpressions_eq, expressionsOver,
      Parser.run_bind_ok parsed]
    exact elementEnd_comma (others closing last rest close)
  | noArgument =>
    intro closing last rest close
    exact expressionList_none close
  | arguments _ inside =>
    intro closing last rest close
    exact expressionList_some close (inside closing last rest close)

/-- What is derived in layers is read as it is derived, before any token that does not go on with
it: no operator, no argument list and no sign of assignment. -/
theorem expression_of_derivation {w : Tokens} {node : Node}
    (derived : Derives w (.expression .logic node)) (rest : Tokens)
    (noAssign : rest.current ≠ .assign) (noInfix : rest.current ∉ Token.infixes)
    (noCall : rest.current ≠ .leftParen) :
    Grammar.expression none (w ++ rest) = .ok node rest := by
  have loose : rest.current.precedence = .lowest := by
    by_contra binds
    have positive : Precedence.lowest.looser rest.current.precedence = true := by
      cases found : rest.current.precedence with
      | lowest => exact absurd found binds
      | _ => rfl
    exact noInfix (Grammar.mem_infixes_of_looser positive noCall)
  exact derived.read.whole loose noAssign

/-- In `not -a ^ -b - c` a power binds more tightly than the sign before it and less than the one of
its exponent, and `not` reaches over all of it. -/
theorem expression_of_derivation_signs :
    let access (name : String) : Node := .variable ⟨name, ⟨0, 0⟩⟩
    let opposite (operand : Node) : Node := .unary .minus operand ⟨0, 0⟩
    let power : Node := .binary (access "a") .power (opposite (access "b")) ⟨0, 0⟩
    let ends : Tokens := [Grammar.bare .endOfInput]
    Grammar.expression none ([.keyword .notWord, .minus, .ident "a", .power, .minus, .ident "b",
        .minus, .ident "c"].map Grammar.bare ++ ends)
      = .ok (.unary (.keyword .notWord)
          (.binary (opposite power) .minus (access "c") ⟨0, 0⟩) ⟨0, 0⟩) ends := by
  intro access opposite power ends
  have exponent : Derives ([.minus, .ident "b"].map Grammar.bare)
      (.expression .factor (opposite (access "b"))) :=
    .sign (.inr rfl) (.operand (.operand (.operand .access)))
  have raised : Derives ([.ident "a", .power, .minus, .ident "b"].map Grammar.bare)
      (.expression .power power) := .power (.operand .access) exponent
  have known : Token.minus ∈ Level.sum.operators := by decide
  have difference : Derives ([.minus, .ident "a", .power, .minus, .ident "b", .minus,
      .ident "c"].map Grammar.bare)
      (.expression .sum (.binary (opposite power) .minus (access "c") ⟨0, 0⟩)) :=
    .chain known (.operand (.operand (.sign (.inr rfl) (.operand raised))))
      (.operand (.operand (.operand (.operand .access))))
  exact expression_of_derivation (.operand (.negation (.operand (.operand difference)))) ends nofun
    (by decide) nofun

end Primer
