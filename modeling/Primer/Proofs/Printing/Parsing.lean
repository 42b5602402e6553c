import Primer.Proofs.Parsing.Completion
import Primer.Proofs.Printing.Faithful
import Primer.Proofs.Printing.Tokens
import Primer.Proofs.Program.Bare

/-!
# Parsing the tokens of printed programs

The tokens of a readable program make the program up again. All spans of the tokens are the same here,
so the program comes out bare. An expression is read up to what binds to it, a part in the midst of a
node up to the token that closes it, and a statement up to any token that shows its end.
-/

namespace Primer

open Grammar

/-- Tokens of no place in particular. -/
def lay (tokens : List Token) : Tokens :=
  tokens.map bare

variable {left : Tokens} {α β : Type}

@[simp] theorem lay_nil : lay [] = [] := rfl

@[simp] theorem lay_cons (token : Token) (tokens : List Token) :
    lay (token :: tokens) = bare token :: lay tokens := rfl

@[simp] theorem lay_append (tokens tokens' : List Token) :
    lay (tokens ++ tokens') = lay tokens ++ lay tokens' :=
  List.map_append

namespace Token

/-- The tokens that a parser gets past by asking for them: not the end of input, and no binary64,
which need not be equal to itself. -/
def passes : Token → Bool
  | .endOfInput | .float _ => false
  | _ => true

theorem passes.more {token : Token} (passes : token.passes = true) : token ≠ .endOfInput := by
  rintro rfl
  exact absurd passes Bool.false_ne_true

theorem passes.exact {token : Token} (passes : token.passes = true) (value : Float) :
    token ≠ .float value := by
  rintro rfl
  exact absurd passes Bool.false_ne_true

end Token

namespace Parser

theorem run_expect_bare (token : Token) (passes : token.passes = true) (rest : Tokens)
    (f : Span → Parser β) : (expect token >>= f) (bare token :: rest) = f nowhere rest :=
  run_bind_ok (run_expect_cons rfl (Token.passes.more passes) (Token.passes.exact passes) rest)

theorem run_pass_bare (token : Token) (passes : token.passes = true) (rest : Tokens)
    (f : Unit → Parser β) : (discard (expect token) >>= f) (bare token :: rest) = f () rest :=
  run_pass rfl (Token.passes.more passes) (Token.passes.exact passes) rest f

theorem run_keyword (word : Keyword) (rest : Tokens) (f : Unit → Parser β) :
    (discard (expect (.keyword word)) >>= f) (bare (.keyword word) :: rest) = f () rest :=
  run_pass_bare (.keyword word) rfl rest f

theorem run_demand_bare (token : Token) (passes : token.passes = true) (expected : List String)
    (rest : Tokens) (f : Unit → Parser β) :
    (demand token expected >>= f) (bare token :: rest) = f () rest :=
  run_bind_ok (run_demand_cons rfl (Token.passes.more passes) rest)

theorem run_skip_bare (token : Token) (passes : token.passes = true) (rest : Tokens)
    (f : Unit → Parser β) : (skip token >>= f) (bare token :: rest) = f () rest :=
  run_bind_ok (run_skip_cons rfl (Token.passes.more passes) rest)

theorem run_ident_bare (name : String) (rest : Tokens) (f : Ident → Parser β) :
    (ident >>= f) (bare (.ident name) :: rest) = f ⟨name, nowhere⟩ rest :=
  run_bind_ok (run_ident_cons rfl rest)

theorem run_step_bare (token : Token) (passes : token.passes = true) (rest : Tokens)
    (f : Unit → Parser β) : (step >>= f) (bare token :: rest) = f () rest :=
  run_bind_ok (run_step_cons (Token.passes.more passes) rest)

end Parser

namespace Token

/-- The tokens that the text of a statement starts with. -/
def opens : Token → Bool
  | .int _ | .float _ | .string _ | .ident _ | .leftParen | .leftBracket => true
  | .keyword word =>
    word ∈ [.ifWord, .forWord, .whileWord, .repeatWord, .funWord, .returnWord, .continueWord,
      .breakWord]
  | _ => false

theorem opens.ne {token other : Token} (opens : token.opens = true) (closes : other.opens = false) :
    token ≠ other := by
  rintro rfl
  exact absurd opens (by rw [closes]; exact nofun)

theorem isBlockEnd_of_opens {token : Token} (opens : token.opens = true) :
    token.isBlockEnd = false := by
  cases token with
  | keyword word => cases word <;> first | rfl | exact absurd opens (by decide)
  | endOfInput => exact absurd opens (by decide)
  | _ => rfl

end Token

/-- The words that start a statement which is no expression. -/
def Token.statementWords : List Token :=
  [.keyword .returnWord, .keyword .continueWord, .keyword .breakWord]

/-- The tokens of a node start with one that opens a statement, and an expression with none of the
words that only a statement has. -/
def Node.Opens (node : Node) : Prop :=
  ∃ first more, node.tokens = first :: more ∧ first.opens = true ∧
    (node.isExpression = true → first ∉ Token.statementWords)

/-- The tokens of a node, and what follows them, start with one that opens a statement. -/
theorem Node.Opens.current {node : Node} (opens : node.Opens) (left : Tokens) :
    (Tokens.current (lay node.tokens ++ left)).opens = true := by
  obtain ⟨first, more, tokens, opens, -⟩ := opens
  rw [tokens]
  exact opens

theorem Node.Readable.opens {node : Node} (readable : node.Readable) : node.Opens := by
  induction node using Node.parts_induction with
  | step node ih =>
  cases node with
  | call callee arguments span =>
    have callable := (List.forall_mem_cons.mp readable.grammatical).1
    obtain ⟨first, more, tokens, opens, other⟩ :=
      ih callee List.mem_cons_self (readable.part List.mem_cons_self)
    exact ⟨first, _, by rw [Node.tokens, tokens, List.cons_append], opens, fun _ => other callable⟩
  | number value span => cases value <;> exact ⟨_, _, rfl, rfl, by simp [Token.statementWords]⟩
  | returning | continuing | breaking => exact ⟨_, _, rfl, rfl, by simp [Node.isExpression]⟩
  | _ => exact ⟨_, _, rfl, rfl, by simp [Token.statementWords]⟩

theorem Tokens.current_bare (token : Token) (left : Tokens) :
    Tokens.current (Grammar.bare token :: left) = token := rfl

namespace Grammar

/-- The node is an expression, up to what binds to it, behind an operator that binds more loosely than
a call. -/
def Parses (node : Node) : Prop :=
  ∀ (precedence : Option Precedence) (left : Tokens),
    (precedence.getD .lowest).looser .call = true →
      (node.isAssignment = true → precedence = none) → node.EndsBefore left.current →
        expression precedence (lay node.tokens ++ left)
          = allContinuation (precedence.getD .lowest) node.bare left

/-- An expression ends before a token that is no operator. -/
theorem Parses.ends {node : Node} (parses : Parses node) {precedence : Option Precedence}
    (binds : (precedence.getD .lowest).looser .call = true)
    (assigns : node.isAssignment = true → precedence = none)
    (ends : node.EndsBefore left.current) (stops : left.current.precedence = .lowest) :
    expression precedence (lay node.tokens ++ left) = .ok node.bare left := by
  rw [parses precedence left binds assigns ends]
  refine allContinuation_stop _ ?_
  rw [stops]
  cases precedence.getD .lowest <;> rfl

/-- The node is an expression in the midst of a node. -/
def ParsesInside (node : Node) : Prop :=
  ∀ left : Tokens, left.current ∈ Token.closings →
    expression none (lay node.tokens ++ left) = .ok node.bare left

/-- No token that closes a part is an operator. -/
theorem precedence_of_closing {token : Token} (closes : token ∈ Token.closings) :
    token.precedence = .lowest := by
  simp only [Token.closings, List.mem_cons, List.not_mem_nil, or_false] at closes
  rcases closes with rfl | rfl | rfl | rfl | rfl | rfl | rfl <;> rfl

theorem Parses.inside {node : Node} (parses : Parses node) (whole : ¬node.EndsInReturn) :
    ParsesInside node :=
  fun _ closes => parses.ends rfl (fun _ => rfl) (.closing whole closes) (precedence_of_closing closes)

/-- A part in the midst of a node ends before a word that closes it. -/
theorem ParsesInside.before {node : Node} (parses : ParsesInside node) (word : Keyword)
    (closes : .keyword word ∈ Token.closings) (rest : Tokens) :
    expression none (lay node.tokens ++ bare (.keyword word) :: rest)
      = .ok node.bare (bare (.keyword word) :: rest) :=
  parses _ closes

/-- The constructs that are known by the token in front. -/
def construct? : Token → Option (Inner → Parser Node)
  | .leftBracket => some list
  | .plus | .minus | .keyword .notWord => some unary
  | .keyword .ifWord => some conditional
  | .keyword .forWord => some forLoop
  | .keyword .whileWord => some whileLoop
  | .keyword .repeatWord => some repeatLoop
  | .keyword .funWord => some function
  | _ => none

theorem primary_construct (token : Token) {construct : Inner → Parser Node}
    (known : construct? token = some construct) (precedence : Option Precedence) (rest : Tokens) :
    primary expression precedence (bare token :: rest)
      = construct expression (bare token :: rest) := by
  cases token with
  | leftBracket | plus | minus => cases known; rfl
  | keyword word => cases word <;> cases known <;> rfl
  | _ => cases known

theorem primary_ident (precedence : Option Precedence) (name : String) (rest : Tokens) :
    primary expression precedence (bare (.ident name) :: rest)
      = named precedence (bare (.ident name) :: rest) := rfl

/-- What is read as an expression can stand between parentheses. -/
theorem primary_parenthesised {precedence : Option Precedence} {tokens : Tokens} {node : Node}
    (inner : expression none tokens = .ok node (bare .rightParen :: left)) :
    primary expression precedence (bare .leftParen :: tokens) = .ok node left := by
  rw [primary, Parser.run_span, Parser.run_current, Tokens.current_bare]
  refine (Parser.run_step_bare .leftParen rfl tokens _).trans ?_
  rw [Parser.run_bind_ok inner, Parser.run_pass_bare .rightParen rfl]
  rfl

/-- Expressions with commas between them, up to a closing token. -/
private theorem allExpressions_comma {closing : Token} {first : Node} {others : List Node}
    (each : ∀ element ∈ first :: others, ParsesInside element)
    (close : closing = .rightParen ∨ closing = .rightBracket) :
    allExpressions closing (lay (Node.commaTokens (first :: others)) ++ bare closing :: left)
      = .ok ((first :: others).map Node.bare, nowhere) left := by
  have closes : closing ∈ Token.closings := by rcases close with rfl | rfl <;> decide
  have noComma : closing ≠ .comma := by rcases close with rfl | rfl <;> exact nofun
  have passes : closing.passes = true := by rcases close with rfl | rfl <;> rfl
  induction others generalizing first with
  | nil =>
    have parsed := each first List.mem_cons_self (bare closing :: left) closes
    rw [allExpressions_eq, expressionsOver, Node.commaTokens, Parser.run_bind_ok parsed, elementEnd,
      Parser.run_current, Tokens.current_bare, if_neg noComma, if_pos rfl, Parser.run_span,
      Parser.run_step_bare closing passes]
    rfl
  | cons next others ih =>
    have both := List.forall_mem_cons.mp each
    have parsed (rest : Tokens) : expression none (lay first.tokens ++ bare .comma :: rest)
        = .ok first.bare (bare .comma :: rest) :=
      both.1 _ (show Token.comma ∈ Token.closings by decide)
    rw [allExpressions_eq, expressionsOver, Node.commaTokens, lay_append, lay_cons, List.append_assoc,
      List.cons_append, Parser.run_bind_ok (parsed _), elementEnd, Parser.run_current,
      Tokens.current_bare, if_pos rfl, Parser.run_step_bare .comma rfl,
      Parser.run_bind_ok (ih both.2)]
    rfl

/-- Any number of expressions with commas between them, up to a closing token. -/
theorem expressionList_comma {closing : Token} {elements : List Node}
    (each : ∀ element ∈ elements, ParsesInside element)
    (opens : ∀ element ∈ elements, element.Opens)
    (close : closing = .rightParen ∨ closing = .rightBracket) (left : Tokens) :
    expressionList expression closing (lay (Node.commaTokens elements) ++ bare closing :: left)
      = .ok (elements.map Node.bare, nowhere) left := by
  cases elements with
  | nil =>
    have passes : closing.passes = true := by rcases close with rfl | rfl <;> rfl
    rw [expressionList, Node.commaTokens, lay_nil, List.nil_append, Parser.run_current,
      Tokens.current_bare, if_pos rfl, Parser.run_span, Parser.run_step_bare closing passes]
    rfl
  | cons first others =>
    -- The list is not empty, which the parser sees by the first token of its first element.
    have current : Tokens.current (lay (Node.commaTokens (first :: others)) ++ bare closing :: left)
        ≠ closing := by
      have start : (Tokens.current
          (lay (Node.commaTokens (first :: others)) ++ bare closing :: left)).opens = true := by
        cases others with
        | nil => exact (opens first List.mem_cons_self).current _
        | cons next others =>
          rw [Node.commaTokens, lay_append, List.append_assoc]
          exact (opens first List.mem_cons_self).current _
      exact Token.opens.ne start (by rcases close with rfl | rfl <;> rfl)
    rw [expressionList, Parser.run_current, if_neg current]
    exact allExpressions_comma each close

/-- What is known of the operators that stand between two operands. -/
private theorem operator_facts {operator : Token} (known : operator ∈ Token.infixes) :
    Precedence.lowest.looser operator.precedence = true ∧ operator ≠ .leftParen ∧
      operator ≠ .assign ∧ operator.passes = true ∧
      operator ∉ [.keyword .endWord, .keyword .elifWord, .keyword .elseWord] ∧
      (if operator = .power then Precedence.unary else operator.precedence).looser .call = true := by
  simp only [Token.infixes, List.mem_cons, List.not_mem_nil, or_false] at known
  rcases known with rfl | rfl | rfl | rfl | rfl | rfl | rfl | rfl | rfl | rfl | rfl | rfl | rfl | rfl
  all_goals exact ⟨rfl, nofun, nofun, rfl, by decide, rfl⟩

/-- What is known of the operators that stand before an operand. -/
private theorem sign_facts {operator : Token} (sign : operator ∈ Token.signs) :
    operator.passes = true ∧ construct? operator = some unary := by
  simp only [Token.signs, List.mem_cons, List.not_mem_nil, or_false] at sign
  rcases sign with rfl | rfl | rfl
  all_goals exact ⟨rfl, rfl⟩

/-- The span of the last of several bare nodes, or else of another. -/
private theorem span_last (nodes : List Node) (node : Node) :
    (((nodes.map Node.bare).getLast?).getD node.bare).span = nowhere := by
  rw [List.getLast?_map]
  cases nodes.getLast? with
  | none => exact node.span_bare
  | some last => exact last.span_bare

/-- The statement is read up to a token that shows its end. -/
structure ParsesStatement (node : Node) : Prop where
  opens : node.Opens
  parses : ∀ left : Tokens, node.EndsBefore left.current →
    node.isJump = true ∨ left.current.precedence = .lowest →
      statement expression (lay node.tokens ++ left) = .ok node.bare left

/-- A statement is read, and then what follows it. -/
private theorem allStatements_first {first : Node} (statement : ParsesStatement first)
    (ends : left.current = .newline ∨ left.current = .endOfInput) :
    allStatements (lay first.tokens ++ left) = statementEnd allStatements first.bare left := by
  have current := Token.isBlockEnd_of_opens (statement.opens.current left)
  have lowest : left.current.precedence = .lowest := by rcases ends with ends | ends <;> rw [ends] <;> rfl
  refine (congrFun allStatements_eq _).trans ?_
  rw [statementsOver, Parser.run_current, current, if_neg Bool.false_ne_true,
    Parser.run_bind_ok (statement.parses left (.line ends) (.inr lowest))]

private theorem allStatements_line {first : Node} {others : List Node} {rest : Tokens}
    (statement : ParsesStatement first) (stops : rest.current ≠ .newline)
    (behind : allStatements rest = .ok others left) :
    allStatements (lay first.tokens ++ bare .newline :: rest) = .ok (first.bare :: others) left := by
  -- There is one newline, because the statement behind it does not start with another.
  have skipped : Tokens.skipNewlines ([bare .newline] ++ rest) = rest :=
    Tokens.skipNewlines_append (List.forall_mem_singleton.mpr rfl) stops
  rw [allStatements_first statement (.inl rfl), statementEnd, Parser.run_current,
    Tokens.current_bare]
  simp only
  rw [Parser.run_skipNewlines, ← List.singleton_append, skipped, Parser.run_bind_ok behind]
  rfl

/-- The statements of a block, with a newline behind each. -/
theorem allStatements_lines {statements : List Node}
    (each : ∀ statement ∈ statements, ParsesStatement statement) (ends : EndsBlock left.current) :
    allStatements (lay (Node.lineTokens statements) ++ left)
        = .ok (statements.map Node.bare) left ∧
      Tokens.current (lay (Node.lineTokens statements) ++ left) ≠ .newline := by
  induction statements with
  | nil => exact ⟨allStatements_end ends, ends.ne_newline⟩
  | cons first others ih =>
    have statements := List.forall_mem_cons.mp each
    have behind := ih statements.2
    rw [Node.lineTokens, lay_append, lay_cons, List.append_assoc, List.cons_append]
    exact ⟨allStatements_line statements.1 behind.2 behind.1,
      Token.opens.ne (statements.1.opens.current _) rfl⟩

/-- The statements of a program, with a newline between them. -/
theorem allStatements_joined {statements : List Node}
    (each : ∀ statement ∈ statements, ParsesStatement statement) :
    allStatements (lay (Node.joinedTokens statements) ++ [bare .endOfInput])
        = .ok (statements.map Node.bare) [bare .endOfInput] ∧
      Tokens.current (lay (Node.joinedTokens statements) ++ [bare .endOfInput]) ≠ .newline := by
  match statements with
  | [] => exact ⟨allStatements_end rfl, nofun⟩
  | [statement] =>
    have only := each statement List.mem_cons_self
    refine ⟨?_, Token.opens.ne (only.opens.current _) rfl⟩
    rw [Node.joinedTokens, allStatements_first only (.inr rfl)]
    rfl
  | first :: next :: others =>
    have statements := List.forall_mem_cons.mp each
    have behind := allStatements_joined statements.2
    rw [Node.joinedTokens, lay_append, lay_cons, List.append_assoc, List.cons_append]
    exact ⟨allStatements_line statements.1 behind.2 behind.1,
      Token.opens.ne (statements.1.opens.current _) rfl⟩

/-- Bare statements span nothing. -/
theorem blockSpan_bare (nodes : List Node) : blockSpan 0 (nodes.map Node.bare) = nowhere := by
  rw [blockSpan, List.getLast?_map, List.head?_map]
  cases nodes.head? with
  | none => rfl
  | some first =>
    cases nodes.getLast? with
    | none => rfl
    | some last =>
      simp only [Option.map_some, Node.span_bare]
      rfl

section Block

variable {statements : List Node} (each : ∀ statement ∈ statements, ParsesStatement statement)
include each

theorem block_lines (ends : EndsBlock left.current) :
    block expression (bare .newline :: (lay (Node.lineTokens statements) ++ left))
      = .ok ⟨Node.bareAll statements, nowhere⟩ left := by
  have lines := allStatements_lines each ends
  have skipped : Tokens.skipNewlines ([bare .newline] ++ (lay (Node.lineTokens statements) ++ left))
      = lay (Node.lineTokens statements) ++ left :=
    Tokens.skipNewlines_append (List.forall_mem_singleton.mpr rfl) lines.2
  have parsed := run_block ((congrArg allStatements skipped).trans lines.1)
  rw [Node.bareAll_eq_map, ← blockSpan_bare statements]
  exact parsed

theorem closedBlock_lines (left : Tokens) :
    closedBlock expression (bare .newline ::
        (lay (Node.lineTokens statements) ++ bare (.keyword .endWord) :: left))
      = .ok (.block (Node.bareAll statements) nowhere) left := by
  rw [closedBlock, Parser.run_bind_ok (block_lines each rfl), Parser.run_keyword]
  rfl

end Block

/-- The token behind a body shows the end of it, if it is a statement on one line. -/
def BodyEnds (body : Body) (next : Token) : Prop :=
  ∀ statement, body.inline? = some statement →
    statement.EndsBefore next ∧ (statement.isJump = true ∨ next.precedence = .lowest)

/-- A body that the text of a node ends with ends where the node does. -/
theorem bodyEnds_of_tail {node : Node} {body : Body} {next : Token} (ends : node.EndsBefore next)
    (tail : node.tail? = body.inline?) : BodyEnds body next :=
  fun _ inline => ends.last (tail.trans inline)

section Body

variable {body : Body} (each : ∀ statement ∈ body.statements, ParsesStatement statement)
include each

theorem atBlockStart_tokens (left : Tokens) :
    Tokens.atBlockStart (lay body.tokens ++ left) = body.isBlock := by
  cases body with
  | block statements span => rfl
  | inline statement =>
    have opens := (each statement List.mem_cons_self).opens.current left
    show Tokens.atBlockStart (lay statement.tokens ++ left) = false
    rw [Tokens.atBlockStart]
    generalize Tokens.current (lay statement.tokens ++ left) = token at opens
    cases token with
    | newline | endOfInput => exact absurd opens (by decide)
    | _ => rfl

/-- A loop's body, or the last of a conditional. -/
theorem body_tokens (ends : BodyEnds body left.current) :
    Grammar.body expression (lay body.closedTokens ++ left) = .ok body.bare left := by
  cases body with
  | inline statement =>
    obtain ⟨stops, last⟩ := ends statement rfl
    have inline : Tokens.atBlockStart (lay statement.tokens ++ left) = false :=
      atBlockStart_tokens each left
    have parsed := (each statement List.mem_cons_self).parses left stops last
    rw [Grammar.body, Parser.run_atBlockStart, Body.closedTokens, inline, if_neg Bool.false_ne_true,
      Parser.run_bind_ok parsed, Parser.run_bind_ok (Parser.run_skip_of_ne stops.noEnd)]
    rfl
  | block statements span =>
    simp only [Body.closedTokens, lay_cons, lay_append, lay_nil, List.cons_append, List.append_assoc,
      List.nil_append]
    rw [Grammar.body, Parser.run_atBlockStart]
    exact closedBlock_lines each left

/-- A condition and the body behind it, before what follows the body. -/
theorem allBranches_first {condition : Node} (test : ParsesInside condition) (left : Tokens)
    (ends : BodyEnds body left.current) (closes : body.isBlock = true → EndsBlock left.current) :
    allBranches (lay condition.tokens ++ bare (.keyword .thenWord) :: (lay body.tokens ++ left))
      = branchEnd expression allBranches condition.bare body.isBlock body.bare left := by
  have parsed : branchBody expression body.isBlock (lay body.tokens ++ left) = .ok body.bare left := by
    cases body with
    | inline statement =>
      obtain ⟨stops, last⟩ := ends statement rfl
      rw [Body.isBlock, branchBody, if_neg Bool.false_ne_true, map_eq_pure_bind]
      exact Parser.run_bind_ok ((each statement List.mem_cons_self).parses left stops last)
    | block statements span =>
      rw [Body.isBlock, branchBody, if_pos rfl, map_eq_pure_bind]
      exact Parser.run_bind_ok (block_lines each (closes rfl))
  refine (congrFun allBranches_eq _).trans ?_
  rw [branchesOver, Parser.run_bind_ok (test.before .thenWord (by decide) _), Parser.run_keyword,
    Parser.run_atBlockStart, atBlockStart_tokens each]
  exact Parser.run_bind_ok parsed

end Body

/-- No other branch follows a branch on one line. -/
theorem branchEnd_inline {others : Parser (Node × Body × Branches)} {condition : Node} {first : Body}
    (noEnd : left.current ≠ .keyword .endWord) (noElif : left.current ≠ .keyword .elifWord)
    (noElse : left.current ≠ .keyword .elseWord) :
    branchEnd expression others condition false first left = .ok (condition, first, .none) left := by
  rw [branchEnd, Parser.run_current]
  generalize left.current = token at noEnd noElif noElse
  cases token with
  | keyword word => cases word <;> first | rfl | contradiction
  | _ => rfl

/-- A body on one line that leaves the next branch to its conditional. -/
theorem bodyEnds_branch {body : Body} {word : Keyword}
    (whole : ∀ statement ∈ body.inline?, ¬statement.Dangles)
    (branch : word = .elifWord ∨ word = .elseWord) : BodyEnds body (.keyword word) := by
  intro statement inline
  have lowest : (Token.keyword word).precedence = .lowest := by rcases branch with rfl | rfl <;> rfl
  exact ⟨.branch (whole statement inline) (by rcases branch with rfl | rfl <;> simp), .inr lowest⟩

theorem allBranches_tokens {condition : Node} {body : Body} {others : Branches}
    (test : ParsesInside condition) (each : ∀ statement ∈ body.statements, ParsesStatement statement)
    (tests : ∀ condition ∈ others.conditions, ParsesInside condition)
    (bodies : ∀ body ∈ others.bodies, ∀ statement ∈ body.statements, ParsesStatement statement)
    (aligned : others.Aligned body) (ends : BodyEnds (others.lastBody body) left.current)
    (last : others.hasElse = false → (others.lastBody body).inline?.isSome = true →
      left.current ≠ .keyword .elifWord ∧ left.current ≠ .keyword .elseWord) :
    allBranches (lay condition.tokens ++ bare (.keyword .thenWord) ::
        (lay body.tokens ++ (lay (others.tokens body.isBlock) ++ left)))
      = .ok (condition.bare, body.bare, others.bare) left := by
  cases others with
  | none =>
    cases body with
    | inline statement =>
      -- Nothing closes the branch, so what follows the conditional must not be one more.
      have noBranch := last rfl rfl
      rw [Branches.tokens, Body.isBlock, if_neg Bool.false_ne_true, lay_nil, List.nil_append,
        allBranches_first each test left ends (by simp [Body.isBlock])]
      exact branchEnd_inline (ends statement rfl).1.noEnd noBranch.1 noBranch.2
    | block statements span =>
      rw [allBranches_first each test _ (by simp [BodyEnds, Body.inline?]) fun _ => rfl]
      rfl
  | otherwise final =>
    have parsed : Grammar.body expression (lay final.closedTokens ++ left) = .ok final.bare left :=
      body_tokens (bodies final List.mem_cons_self) ends
    simp only [Branches.tokens, lay_cons, List.cons_append]
    rw [allBranches_first each test (bare (.keyword .elseWord) :: _)
      (bodyEnds_branch aligned (.inr rfl)) fun _ => rfl]
    simp only [branchEnd, Parser.run_current, Tokens.current_bare]
    rw [Parser.run_step_bare (.keyword .elseWord) rfl, Parser.run_bind_ok parsed]
    rfl
  | elif next second others =>
    -- What follows `elif` is read as a conditional of its own would be.
    have nextTest := List.forall_mem_cons.mp tests
    have nextBody := List.forall_mem_cons.mp bodies
    have behind := allBranches_tokens nextTest.1 nextBody.1 nextTest.2 nextBody.2 aligned.2.2 ends last
    simp only [Branches.tokens, lay_cons, lay_append, List.cons_append, List.append_assoc]
    rw [allBranches_first each test (bare (.keyword .elifWord) :: _)
      (bodyEnds_branch aligned.2.1 (.inl rfl)) fun _ => rfl]
    simp only [branchEnd, Parser.run_current, Tokens.current_bare]
    rw [Parser.run_step_bare (.keyword .elifWord) rfl, Parser.run_bind_ok behind]
    rfl

private theorem allParams_comma {first : Ident} {others : List Ident} :
    allParams (lay (Ident.paramTokens (first :: others)) ++ bare .rightParen :: left)
      = .ok ((first :: others).map Ident.bare) (bare .rightParen :: left) := by
  induction others generalizing first with
  | nil =>
    refine (congrFun allParams_eq _).trans ?_
    exact Parser.run_ident_bare first.name _ _
  | cons next others ih =>
    refine (congrFun allParams_eq _).trans ?_
    rw [paramsOver, Ident.paramTokens, lay_cons, lay_cons, List.cons_append, List.cons_append,
      Parser.run_ident_bare, paramEnd, Parser.run_current,
      Tokens.current_bare]
    simp only
    rw [Parser.run_step_bare .comma rfl, Parser.run_bind_ok ih]
    rfl

theorem functionParams_comma (params : List Ident) (left : Tokens) :
    functionParams (lay (Ident.paramTokens params) ++ bare .rightParen :: left)
      = .ok (params.map Ident.bare) (bare .rightParen :: left) := by
  match params with
  | [] => rfl
  | [param] => exact allParams_comma
  | param :: next :: others => exact allParams_comma

theorem functionName_tokens (name : Option Ident) (left : Tokens) :
    functionName (lay (Ident.optionTokens name) ++ bare .leftParen :: left)
      = .ok (name.map Ident.bare) (bare .leftParen :: left) := by
  cases name with
  | none => rfl
  | some ident =>
    simp only [Ident.optionTokens, lay_cons, lay_nil, List.cons_append, List.nil_append, functionName,
      Parser.run_current, Tokens.current_bare]
    exact Parser.run_ident_bare ident.name _ _

/-- A function, given its body. -/
theorem function_tokens (name : Option Ident) (params : List Ident) {body : Body} {tokens : Tokens}
    (parsed : functionBody expression tokens = .ok body.bare left) (span : Span) :
    function expression (bare (.keyword .funWord) :: (lay (Ident.optionTokens name) ++
        bare .leftParen :: (lay (Ident.paramTokens params) ++ bare .rightParen :: tokens)))
      = .ok (Node.function name params body span).bare left := by
  have start : functionStart (name.map Ident.bare) (params.map Ident.bare) body.bare = nowhere := by
    cases name with
    | some ident => rfl
    | none =>
      cases params with
      | nil => exact body.span_bare
      | cons first others => rfl
  rw [function, Parser.run_keyword, Parser.run_bind_ok (functionName_tokens name _),
    Parser.run_demand_bare .leftParen rfl, Parser.run_bind_ok (functionParams_comma params _),
    Parser.run_demand_bare .rightParen rfl, Parser.run_bind_ok parsed, Parser.run_pure, start,
    Body.span_bare]
  rfl

/-- The limit of a counting loop ends before the step or before `then`. -/
private theorem ParsesInside.before_step {limit : Node} (parses : ParsesInside limit)
    (step : Option Node) (rest : Tokens) :
    expression none (lay limit.tokens ++
        (lay (Node.stepTokens step) ++ bare (.keyword .thenWord) :: rest))
      = .ok limit.bare (lay (Node.stepTokens step) ++ bare (.keyword .thenWord) :: rest) := by
  cases step with
  | none => exact parses.before .thenWord (by decide) _
  | some node => exact parses.before .stepWord (by decide) _

private theorem loopStep_tokens {step : Option Node} (stride : ∀ node ∈ step, ParsesInside node)
    (rest : Tokens) :
    loopStep expression (lay (Node.stepTokens step) ++ bare (.keyword .thenWord) :: rest)
      = .ok (Node.bareOption step) (bare (.keyword .thenWord) :: rest) := by
  cases step with
  | none => rfl
  | some node =>
    rw [loopStep, Node.stepTokens, lay_cons, List.cons_append, Parser.run_current,
      Tokens.current_bare, if_pos rfl, Parser.run_step_bare (.keyword .stepWord) rfl,
      Parser.run_bind_ok ((stride node rfl).before .thenWord (by decide) _)]
    rfl

private theorem span_lastBody (body : Body) (others : Branches) :
    (others.bare.lastBody body.bare).span = nowhere := by
  induction body, others using Branches.lastBody.induct with
  | case1 body => exact body.span_bare
  | case2 _ last => exact last.span_bare
  | case3 _ _ next others ih => exact ih

namespace Parses

variable {span : Span}

/-- What is read as an operand is read as an expression. -/
theorem of_primary {node : Node}
    (first : ∀ (precedence : Option Precedence) (left : Tokens),
      (node.isAssignment = true → precedence = none) → node.EndsBefore left.current →
        primary expression precedence (lay node.tokens ++ left) = .ok node.bare left) :
    Parses node := by
  intro precedence left _ assigns ends
  rw [expression_eq, Parser.run_bind_ok (first precedence left assigns ends)]

theorem ofVariable (ident : Ident) : Parses (.variable ident) := by
  refine of_primary fun precedence left _ ends => ?_
  simp only [Node.tokens, lay_cons, lay_nil, List.cons_append, List.nil_append]
  -- No sign of assignment follows, so the name is a variable.
  rw [primary_ident, run_named precedence rfl, if_neg (by simp [ends.noAssign])]
  rfl

theorem ofList {elements : List Node} (each : ∀ element ∈ elements, ParsesInside element)
    (opens : ∀ element ∈ elements, element.Opens) : Parses (.list elements span) := by
  refine of_primary fun precedence left _ _ => ?_
  have parsed := expressionList_comma each opens (.inr rfl) left
  simp only [Node.tokens, lay_cons, lay_append, lay_nil, List.cons_append, List.append_assoc,
    List.nil_append]
  rw [primary_construct .leftBracket rfl, Grammar.list, Parser.run_expect_bare .leftBracket rfl,
    Parser.run_bind_ok parsed, ← Node.bareAll_eq_map]
  rfl

theorem ofCall {callee : Node} {arguments : List Node} (function : Parses callee)
    (noAssignment : callee.isAssignment = false)
    (ends : callee.EndsBefore .leftParen)
    (each : ∀ argument ∈ arguments, ParsesInside argument)
    (opens : ∀ argument ∈ arguments, argument.Opens) : Parses (.call callee arguments span) := by
  intro precedence left binds _ _
  have parsed := expressionList_comma each opens (.inl rfl) left
  simp only [Node.tokens, lay_cons, lay_append, lay_nil, List.cons_append, List.append_assoc,
    List.nil_append]
  rw [function precedence (bare .leftParen :: _) binds (by simp [noAssignment]) ends]
  -- The callee is read as an operand, and a call binds more tightly than anything before it.
  refine allContinuation_call rfl binds ?_
  rw [Grammar.call, Parser.run_pass_bare .leftParen rfl, Parser.run_bind_ok parsed]
  simp only [Parser.run_pure, span_last, Node.span_bare]
  rw [Node.bare, Node.bareAll_eq_map]
  rfl

theorem ofUnary {operator : Token} {operand : Node} (sign : operator ∈ Token.signs)
    (child : Parses operand) (noAssignment : operand.isAssignment = false)
    (whole : ¬operand.EndsInReturn) : Parses (.unary operator operand span) := by
  refine of_primary fun precedence left _ _ => ?_
  simp only [Node.tokens, lay_cons, lay_append, lay_nil, List.cons_append, List.append_assoc,
    List.nil_append]
  have parsed : expression (some (if operator = .keyword .notWord then .logical else .unary))
      (lay operand.tokens ++ bare .rightParen :: left)
      = .ok operand.bare (bare .rightParen :: left) :=
    child.ends (by split <;> rfl) (by simp [noAssignment])
      (.closing whole (by simp [Token.closings, Tokens.current_bare])) rfl
  -- Inside its parentheses the operator comes first and the operand reaches up to the end.
  have signed : Grammar.unary expression
      (bare operator :: (lay operand.tokens ++ bare .rightParen :: left))
      = .ok (Node.unary operator operand span).bare (bare .rightParen :: left) := by
    rw [Grammar.unary, Parser.run_span, Parser.run_current, Tokens.current_bare,
      Parser.run_step_bare operator (sign_facts sign).1, Parser.run_bind_ok parsed,
      Parser.run_pure, Node.span_bare]
    rfl
  refine primary_parenthesised ?_
  rw [expression_eq,
    Parser.run_bind_ok ((primary_construct operator (sign_facts sign).2 none _).trans signed)]
  exact allContinuation_stop _ rfl

theorem ofBinary {first second : Node} {operator : Token} (known : operator ∈ Token.infixes)
    (left : Parses first) (ends : first.EndsBefore operator) (right : Parses second)
    (noAssignment : second.isAssignment = false) (whole : ¬second.EndsInReturn) :
    Parses (.binary first operator second span) := by
  refine of_primary fun precedence rest _ _ => ?_
  obtain ⟨binds, noCall, -, passes, -, tight⟩ := operator_facts known
  simp only [Node.tokens, lay_cons, lay_append, lay_nil, List.cons_append, List.append_assoc,
    List.nil_append]
  have parsed : expression (some (if operator = .power then .unary else operator.precedence))
      (lay second.tokens ++ bare .rightParen :: rest) = .ok second.bare (bare .rightParen :: rest) :=
    right.ends tight (by simp [noAssignment])
      (.closing whole (by simp [Token.closings, Tokens.current_bare])) rfl
  -- Inside its parentheses the left operand is read up to the operator, which goes on with it.
  have joined : Grammar.binary expression first.bare
      (bare operator :: (lay second.tokens ++ bare .rightParen :: rest))
      = .ok (Node.binary first operator second span).bare (bare .rightParen :: rest) := by
    rw [Grammar.binary, Parser.run_current, Tokens.current_bare, Parser.run_step_bare operator passes,
      Parser.run_bind_ok parsed, Parser.run_pure, Node.span_bare, Node.span_bare]
    rfl
  refine primary_parenthesised ?_
  rw [left none (bare operator :: _) rfl (fun _ => rfl) ends, Option.getD_none,
    allContinuation_binary joined binds noCall]
  exact allContinuation_stop _ rfl

theorem ofAssign {target : Ident} {value : Node} (parses : Parses value)
    (expression : value.isExpression = true) : Parses (.assign target value span) := by
  refine of_primary fun precedence left assigns ends => ?_
  obtain rfl : precedence = none := assigns rfl
  have parsed := parses.ends rfl (fun _ => rfl) (ends.last rfl).1 (ends.lowest rfl expression)
  simp only [Node.tokens, lay_cons, List.cons_append]
  rw [primary_ident, run_named none rfl, if_pos (by rfl), assignment, Parser.run_ident_bare,
    Parser.run_pass_bare .assign rfl, Parser.run_bind_ok parsed, Parser.run_pure, Node.span_bare]
  rfl

section Body

variable {body : Body} (each : ∀ statement ∈ body.statements, ParsesStatement statement)
include each

theorem ofFor {counter : Ident} {first limit : Node} {step : Option Node}
    (start : ParsesInside first) (stop : ParsesInside limit)
    (stride : ∀ node ∈ step, ParsesInside node) :
    Parses (.forLoop counter first limit step body span) := by
  refine of_primary fun precedence left _ ends => ?_
  simp only [Node.tokens, lay_cons, lay_append, List.cons_append, List.append_assoc]
  rw [primary_construct (.keyword .forWord) rfl, forLoop, Parser.run_keyword,
    Parser.run_ident_bare, Parser.run_pass_bare .assign rfl,
    Parser.run_bind_ok (start.before .toWord (by decide) _), Parser.run_keyword,
    Parser.run_bind_ok (stop.before_step step _), Parser.run_bind_ok (loopStep_tokens stride _),
    Parser.run_keyword, Parser.run_bind_ok (body_tokens each (bodyEnds_of_tail ends rfl)),
    Parser.run_pure, Body.span_bare]
  rfl

theorem ofWhile {condition : Node} (test : ParsesInside condition) :
    Parses (.whileLoop condition body span) := by
  refine of_primary fun precedence left _ ends => ?_
  simp only [Node.tokens, lay_cons, lay_append, List.cons_append, List.append_assoc]
  rw [primary_construct (.keyword .whileWord) rfl, whileLoop, Parser.run_keyword,
    Parser.run_bind_ok (test.before .thenWord (by decide) _), Parser.run_keyword,
    Parser.run_bind_ok (body_tokens each (bodyEnds_of_tail ends rfl)), Parser.run_pure,
    Node.span_bare, Body.span_bare]
  rfl

theorem ofRepeat {count : Node} (times : ParsesInside count) :
    Parses (.repeatLoop count body span) := by
  refine of_primary fun precedence left _ ends => ?_
  simp only [Node.tokens, lay_cons, lay_append, List.cons_append, List.append_assoc]
  rw [primary_construct (.keyword .repeatWord) rfl, repeatLoop, Parser.run_keyword,
    Parser.run_bind_ok (times.before .timesWord (by decide) _), Parser.run_keyword,
    Parser.run_skip_bare (.keyword .thenWord) rfl,
    Parser.run_bind_ok (body_tokens each (bodyEnds_of_tail ends rfl)), Parser.run_pure,
    Node.span_bare, Body.span_bare]
  rfl

theorem ofConditional {condition : Node} {others : Branches} (test : ParsesInside condition)
    (tests : ∀ condition ∈ others.conditions, ParsesInside condition)
    (bodies : ∀ body ∈ others.bodies, ∀ statement ∈ body.statements, ParsesStatement statement)
    (aligned : others.Aligned body) : Parses (.conditional condition body others span) := by
  refine of_primary fun precedence left _ ends => ?_
  have parsed := allBranches_tokens test each tests bodies aligned (bodyEnds_of_tail ends rfl)
    fun noElse inline => (ends.stops _ .refl).branch (by simp [Node.awaitsElse, noElse, inline])
  simp only [Node.tokens, lay_cons, lay_append, List.cons_append, List.append_assoc]
  rw [primary_construct (.keyword .ifWord) rfl, conditional, Parser.run_keyword, Parser.run_get]
  refine (Parser.run_bind_ok parsed).trans ?_
  -- All that is left to see is that the span of the conditional is no place either.
  simp only [Parser.run_pure, Node.span_bare, span_lastBody]
  rfl

end Body

theorem ofFunctionBlock {name : Option Ident} {params : List Ident} {statements : List Node}
    {inner : Span} (each : ∀ statement ∈ statements, ParsesStatement statement) :
    Parses (.function name params (.block statements inner) span) := by
  refine of_primary fun precedence left _ _ => ?_
  simp only [Node.tokens, Body.functionTokens, lay_cons, lay_append, lay_nil, List.cons_append,
    List.append_assoc, List.nil_append]
  rw [primary_construct (.keyword .funWord) rfl]
  refine function_tokens name params ?_ span
  simp only [functionBody, Parser.run_current, Tokens.current_bare]
  rw [Parser.run_step_bare (.keyword .thenWord) rfl]
  exact closedBlock_lines each left

theorem ofFunctionValue {name : Option Ident} {params : List Ident} {value : Node}
    (parses : Parses value) (expression : value.isExpression = true) :
    Parses (.function name params (.inline value) span) := by
  refine of_primary fun precedence left _ ends => ?_
  have parsed := parses.ends rfl (fun _ => rfl) (ends.last rfl).1 (ends.lowest rfl expression)
  simp only [Node.tokens, Body.functionTokens, lay_cons, lay_append, List.cons_append,
    List.append_assoc]
  rw [primary_construct (.keyword .funWord) rfl]
  refine function_tokens name params ?_ span
  simp only [functionBody, Parser.run_current, Tokens.current_bare]
  rw [Parser.run_step_bare .arrow rfl, Parser.run_bind_ok parsed]
  rfl

end Parses

namespace ParsesStatement

variable {span : Span}

/-- A statement that is no `return`, `continue` or `break` is an expression. -/
private theorem statement_other {token : Token} (other : token ∉ Token.statementWords)
    (rest : Tokens) :
    statement expression (bare token :: rest) = expression none (bare token :: rest) := by
  rw [statement, Parser.run_span, Parser.run_current, Tokens.current_bare]
  cases token with
  | keyword word => cases word <;> first | rfl | exact absurd other (by decide)
  | _ => rfl

theorem ofExpression {node : Node} (opens : node.Opens) (expression : node.isExpression = true)
    (parses : Parses node) : ParsesStatement node := by
  refine ⟨opens, fun left ends last => ?_⟩
  have lowest : left.current.precedence = .lowest :=
    last.resolve_left (by simp [Node.isJump_of_isExpression expression])
  obtain ⟨first, more, tokens, -, other⟩ := opens
  have falls : statement Grammar.expression (lay node.tokens ++ left)
      = Grammar.expression none (lay node.tokens ++ left) := by
    rw [tokens, lay_cons, List.cons_append, statement_other (other expression)]
  rw [falls]
  exact parses.ends rfl (fun _ => rfl) ends lowest

theorem ofReturnNothing : ParsesStatement (.returning none span) := by
  refine ⟨⟨_, _, rfl, rfl, by simp [Node.isExpression]⟩, fun left ends _ => ?_⟩
  have none : left.current = .newline ∨ left.current.isBlockEnd = true :=
    (ends.stops _ .refl).value span rfl
  simp only [Node.tokens, Node.valueTokens, lay_cons, lay_nil, List.cons_append, List.nil_append,
    statement, Parser.run_span, Parser.run_current, Tokens.current_bare]
  rw [Parser.run_step_bare (.keyword .returnWord) rfl, Parser.run_current,
    if_pos (by simpa using none)]
  rfl

theorem ofReturnValue {value : Node} (opens : value.Opens) (parses : Parses value)
    (expression : value.isExpression = true) : ParsesStatement (.returning (some value) span) := by
  refine ⟨⟨_, _, rfl, rfl, by simp [Node.isExpression]⟩, fun left ends _ => ?_⟩
  have parsed := parses.ends rfl (fun _ => rfl) (ends.last rfl).1 (ends.lowest rfl expression)
  have opens := opens.current left
  -- The parser tells from the token behind `return` that a value is there.
  have more : ¬(decide (Tokens.current (lay value.tokens ++ left) = .newline)
      || (Tokens.current (lay value.tokens ++ left)).isBlockEnd) = true := by
    rw [Token.isBlockEnd_of_opens opens, decide_eq_false (Token.opens.ne opens rfl)]
    exact Bool.false_ne_true
  simp only [Node.tokens, Node.valueTokens, lay_cons, List.cons_append, statement,
    Parser.run_span, Parser.run_current, Tokens.current_bare]
  rw [Parser.run_step_bare (.keyword .returnWord) rfl, Parser.run_current, if_neg more,
    Parser.run_bind_ok parsed, Parser.run_pure, Node.span_bare]
  rfl

end ParsesStatement

end Grammar

open Grammar

namespace Node.Readable

variable {node : Node}

/-- The tokens of a readable node make the node up again. -/
theorem parses (readable : node.Readable) :
    ParsesStatement node ∧ (node.isExpression = true → Parses node) := by
  induction node using Node.parts_induction with
  | step node ih =>
  -- A part is read by itself; that it is whole lets it stand before the token that closes it.
  have parts : ∀ part ∈ node.parts, ParsesStatement part ∧ (part.isExpression = true → Parses part) :=
    fun part member => ih part member (readable.part member)
  have inside {part : Node} (member : part ∈ node.parts) (expression : part.isExpression = true)
      (whole : ¬part.EndsInReturn) : ParsesInside part :=
    ((parts part member).2 expression).inside whole
  have expression (kind : node.isExpression = true) (parses : Parses node) :
      ParsesStatement node ∧ (node.isExpression = true → Parses node) :=
    ⟨.ofExpression readable.opens kind parses, fun _ => parses⟩
  have grammatical := readable.grammatical
  have faithful := readable.faithful
  cases node with
  | number value span =>
    cases value <;> exact expression rfl (.of_primary fun _ _ _ _ => rfl)
  | string value span => exact expression rfl (.of_primary fun _ _ _ _ => rfl)
  | «variable» ident => exact expression rfl (.ofVariable ident)
  | continuing span | breaking span =>
    exact ⟨⟨readable.opens, fun _ _ _ => rfl⟩, by simp [isExpression]⟩
  | returning value span =>
    refine ⟨?_, by simp [isExpression]⟩
    cases value with
    | none => exact .ofReturnNothing
    | some value =>
      have given := parts value List.mem_cons_self
      exact .ofReturnValue given.1.opens (given.2 (grammatical value rfl)) (grammatical value rfl)
  | list elements span =>
    exact expression rfl (.ofList
      (fun element member => inside member (grammatical element member) (faithful element member))
      fun element member => (parts element member).1.opens)
  | call callee arguments span =>
    have kinds := List.forall_mem_cons.mp grammatical
    -- The callee is not open, so the argument list does not go to a part of it.
    have callable : callee.Readable := readable.part List.mem_cons_self
    exact expression rfl (.ofCall ((parts callee List.mem_cons_self).2 kinds.1)
      (callable.grammatical.noAssignment faithful.1)
      (.operator kinds.1 faithful.1 (by simp) (by simp))
      (fun argument member => inside (List.mem_cons_of_mem _ member) (kinds.2 argument member)
        (faithful.2 argument member))
      fun argument member => (parts argument (List.mem_cons_of_mem _ member)).1.opens)
  | unary operator operand span =>
    have child := (parts operand List.mem_cons_self).2 grammatical.2
    exact expression rfl (.ofUnary grammatical.1 child faithful.1 faithful.2)
  | binary left operator right span =>
    obtain ⟨known, first, second⟩ := grammatical
    obtain ⟨-, -, noAssign, -, other, -⟩ := operator_facts known
    have both := List.forall_mem_cons.mp parts
    exact expression rfl (.ofBinary known (both.1.2 first) (.operator first faithful.1 noAssign other)
      ((List.forall_mem_singleton.mp both.2).2 second) faithful.2.1 faithful.2.2)
  | assign target value span =>
    exact expression rfl (.ofAssign ((parts value List.mem_cons_self).2 grammatical.2) grammatical.2)
  | forLoop counter first limit step body span =>
    have each := (List.forall_mem_append.mp parts).2
    have headers : ∀ header ∈ first :: limit :: step.toList, ParsesInside header :=
      fun header member => inside (List.mem_append_left _ member) (grammatical.2 header member)
        (faithful header member)
    exact expression rfl (.ofFor (fun statement member => (each statement member).1)
      (headers first (by simp)) (headers limit (by simp))
      fun node member => headers node (by simpa using .inr (.inr member)))
  | whileLoop condition body span =>
    have each := (List.forall_mem_cons.mp parts).2
    exact expression rfl (.ofWhile (fun statement member => (each statement member).1)
      (inside List.mem_cons_self grammatical faithful))
  | repeatLoop count body span =>
    have each := (List.forall_mem_cons.mp parts).2
    exact expression rfl (.ofRepeat (fun statement member => (each statement member).1)
      (inside List.mem_cons_self grammatical faithful))
  | conditional condition body others span =>
    have all := List.forall_mem_append.mp parts
    have each := (List.forall_mem_cons.mp all.1).2
    have tests : ∀ test ∈ condition :: others.conditions, ParsesInside test := by
      intro test member
      refine inside ?_ (grammatical test member) (faithful.1 test member)
      obtain rfl | member := List.mem_cons.mp member
      · exact List.mem_append_left _ List.mem_cons_self
      · exact List.mem_append_right _ (Branches.mem_nodes_iff.mpr (.inl member))
    have tests := List.forall_mem_cons.mp tests
    exact expression rfl (.ofConditional (fun statement member => (each statement member).1) tests.1
      tests.2 (fun body inside statement member =>
        (all.2 statement (Branches.mem_nodes_iff.mpr (.inr ⟨body, inside, member⟩))).1) faithful.2)
  | function name params body span =>
    cases body with
    | inline value =>
      have kind := grammatical.2 value rfl
      exact expression rfl (.ofFunctionValue ((parts value List.mem_cons_self).2 kind) kind)
    | block statements inner =>
      exact expression rfl (.ofFunctionBlock fun statement member => (parts statement member).1)

end Node.Readable

end Primer
