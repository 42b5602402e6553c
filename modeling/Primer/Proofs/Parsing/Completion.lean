import Primer.Proofs.Parsing.Viability

/-!
# Every construct can be completed

What has been passed of an expression or a statement can be completed before any token that closes
it, and what has been passed of a block before the end of one. Each construct is given the tokens that
complete it from scratch; an expression is completed by a number.
-/

namespace Primer

/-- The tokens before which expressions and statements are completed. None of them goes on with an
expression or a body. -/
def Token.Closes : Token → Prop
  | .rightParen | .rightBracket | .newline | .endOfInput => True
  | .keyword .thenWord | .keyword .toWord | .keyword .timesWord => True
  | _ => False

namespace Token

theorem Closes.precedence {token : Token} (closes : token.Closes) : token.precedence = .lowest := by
  unfold Closes at closes
  split at closes
  all_goals first | exact closes.elim | rfl

theorem Closes.ne {token other : Token} (closes : token.Closes) (more : ¬other.Closes) :
    token ≠ other :=
  fun same => more (same ▸ closes)

end Token

namespace Grammar

variable {n : Nat} {follow : Token → Prop}

/-- A token of no place in particular. -/
abbrev bare (token : Token) : Lexeme :=
  ⟨token, ⟨0, 0⟩⟩

abbrev one : Lexeme :=
  bare (.int 1)

/-- The end of a block. -/
abbrev EndsBlock (token : Token) : Prop :=
  token.isBlockEnd = true

/-- The expressions of at most `n` tokens can be completed. -/
def ViableExpressions (n : Nat) : Prop :=
  ∀ precedence, Viable Token.Closes n 1 (expression precedence)

theorem ViableExpressions.shorter {m : Nat} (viable : ViableExpressions n) (fewer : m ≤ n) :
    ViableExpressions m :=
  fun precedence => (viable precedence).shorter fewer

/-- No operator follows an operand before a token that binds loosely. -/
theorem allContinuation_stop {precedence : Precedence} {tokens : Tokens} (left : Node)
    (stops : precedence.looser tokens.current.precedence = false) :
    allContinuation precedence left tokens = .ok left tokens := by
  rw [allContinuation_eq, continuationOver, Parser.run_current, if_neg (by simp [stops])]
  rfl

/-- A call goes on with an operand behind anything that binds more loosely. -/
theorem allContinuation_call {precedence : Precedence} {callee node : Node}
    {tokens rest : Tokens} (opens : tokens.current = .leftParen)
    (binds : precedence.looser .call = true)
    (called : call expression callee tokens = .ok node rest) :
    allContinuation precedence callee tokens = allContinuation precedence node rest := by
  have tight : precedence.looser tokens.current.precedence = true := by
    rw [opens]
    exact binds
  rw [allContinuation_eq, continuationOver, Parser.run_current, if_pos tight, if_pos opens,
    Parser.run_bind_ok called]

/-- So does an operator. -/
theorem allContinuation_binary {precedence : Precedence} {first node : Node}
    {tokens rest : Tokens} (joined : binary expression first tokens = .ok node rest)
    (binds : precedence.looser tokens.current.precedence = true)
    (noCall : tokens.current ≠ .leftParen) :
    allContinuation precedence first tokens = allContinuation precedence node rest := by
  rw [allContinuation_eq, continuationOver, Parser.run_current, if_pos binds, if_neg noCall,
    Parser.run_bind_ok joined]

theorem completes_expression (precedence : Option Precedence) :
    Completes Token.Closes (expression precedence) [one] := by
  intro rest closes
  refine ⟨.number (.int 1) ⟨0, 0⟩, ?_⟩
  have first : primary expression precedence (one :: rest)
      = .ok (.number (.int 1) ⟨0, 0⟩) rest := rfl
  rw [List.singleton_append, expression_eq, Parser.run_bind, first]
  refine allContinuation_stop _ ?_
  rw [closes.precedence]
  cases precedence.getD .lowest <;> rfl

namespace ViableExpressions

variable (viable : ViableExpressions n)
include viable

theorem expression (precedence : Option Precedence) :
    Startable Token.Closes n 1 [one] (expression precedence) :=
  ⟨viable precedence, completes_expression precedence⟩

theorem behind : ViableExpressions (n - 1) :=
  viable.shorter (Nat.sub_le _ _)

theorem statement : Startable Token.Closes n 1 [one] (statement Grammar.expression) where
  viable := by
    refine .span fun here => .current fun token => ?_
    split
    -- Behind `return` a value may be missing, but a number always fits.
    · refine .step [one] nofun ⟨.current fun token => ?_, ?_⟩
      · split
        · exact (Viable.pure _).viableAt
        · exact (viable.behind.expression none).returning.viable.weaken.viableAt
      · exact (viable.behind.expression none).returning.fresh
    · exact .step [] nofun (.pure _)
    · exact .step [] nofun (.pure _)
    · exact (viable none).viableAt
  fresh := completes_expression none

end ViableExpressions

theorem EndsBlock.ne_newline {token : Token} (ends : EndsBlock token) : token ≠ .newline := by
  rintro rfl
  exact absurd ends nofun

theorem allStatements_end {left : Tokens} (ends : EndsBlock left.current) :
    allStatements left = .ok [] left := by
  rw [allStatements_eq, statementsOver, Parser.run_current, if_pos ends]
  rfl

theorem completes_allStatements : Completes EndsBlock allStatements [] :=
  fun _ ends => ⟨[], allStatements_end ends⟩

private theorem completes_newline : Completes (· ≠ .newline) Parser.skipNewlines [bare .newline] :=
  fun _ stops => ⟨(), congrArg (EStateM.Result.ok ())
    (Tokens.skipNewlines_append (List.forall_mem_singleton.mpr rfl) stops)⟩

private theorem startable_statementEnd {others : Parser (List Node)}
    (starts : Startable EndsBlock n 0 [] others) (first : Node) :
    Startable EndsBlock n 0 [bare .newline] (statementEnd others first) where
  viable := by
    refine .current fun token => Viable.viableAt ?_
    split
    · exact (Startable.skipNewlines (fun _ => EndsBlock.ne_newline) starts.returning).viable
    · split
      · exact .pure _
      · exact .unexpected _
  fresh := completes_newline.bind (fun _ => EndsBlock.ne_newline) fun _ => starts.returning.fresh

namespace ViableExpressions

variable (viable : ViableExpressions n)
include viable

theorem allStatements : Startable EndsBlock n 0 [] allStatements := by
  refine ⟨?_, completes_allStatements⟩
  induction n with
  -- Without tokens there are no statements, and nothing has been passed.
  | zero => exact .of_nil (.ok []) (fun _ _ => rfl) rfl
  | succ n ih =>
    have others : Startable EndsBlock n 0 [] Grammar.allStatements :=
      ⟨ih viable.behind, completes_allStatements⟩
    rw [allStatements_eq]
    refine .current fun token => Viable.viableAt ?_
    split
    · exact .pure []
    · exact (viable.statement.bind [bare .newline] (fun _ _ => trivial)
        fun first => startable_statementEnd others first).viable.weaken

theorem block : Startable EndsBlock n 0 [] (block Grammar.expression) := by
  have rest (here : Span) : Startable EndsBlock n 0 [] (do
      Parser.skipNewlines
      let nodes ← Grammar.allStatements
      return (⟨nodes, blockSpan here.start nodes⟩ : Block)) :=
    .skipNewlines (fun _ => EndsBlock.ne_newline) viable.allStatements.returning
  exact ⟨.span fun here => (rest here).viable, fun tokens => (rest tokens.span).fresh tokens⟩

theorem closedBlock :
    Startable follow n 0 [bare (.keyword .endWord)] (closedBlock Grammar.expression) :=
  viable.block.bind [bare (.keyword .endWord)] (fun _ _ => rfl) fun _ =>
    .pass nofun nofun (.pure _)

theorem body : Startable Token.Closes n 0 [one] (body Grammar.expression) := by
  have inline : Startable Token.Closes n 1 [one] (do
      let statement ← Grammar.statement Grammar.expression
      Parser.skip (.keyword .endWord)
      return Body.inline statement) :=
    viable.statement.bind [] (fun _ closes => closes) fun _ =>
      .skip nofun (fun _ closes => Token.Closes.ne closes nofun) (.pure _)
  refine ⟨.atBlockStart fun answer => ?_, inline.fresh⟩
  split
  · exact viable.closedBlock.viable
  · exact inline.viable.weaken

end ViableExpressions

private theorem completes_elementEnd {closing : Token} {others : Parser (List Node × Span)}
    (closes : closing.Closes) (more : closing ≠ .endOfInput) (first : Node) :
    Completes follow (elementEnd closing others first) [bare closing] := by
  intro rest _
  have other : closing ≠ .comma := closes.ne nofun
  have found : Tokens.current ([bare closing] ++ rest) = closing := rfl
  refine ⟨([first], ⟨0, 0⟩), ?_⟩
  rw [elementEnd, Parser.run_current, found, if_neg other, if_pos rfl, Parser.run_span,
    Parser.run_bind, List.singleton_append, Parser.run_step_cons more]
  rfl

private theorem viable_elementEnd {closing : Token} {others : Parser (List Node × Span)}
    {scratch : Tokens} (more : closing ≠ .endOfInput) (starts : Startable follow n 0 scratch others)
    (first : Node) : Viable follow n 0 (elementEnd closing others first) := by
  refine .current fun token => ?_
  split
  next comma =>
    exact .past scratch (comma ▸ nofun) starts.returning
  next =>
    split
    next here => exact .span fun stop => .past [] (here ▸ more) (.pure _)
    next => exact (Viable.unexpected _).viableAt

namespace ViableExpressions

variable (viable : ViableExpressions n)
include viable

theorem allExpressions {closing : Token} (closes : closing.Closes) (more : closing ≠ .endOfInput) :
    Startable follow n 0 [one, bare closing] (allExpressions closing) := by
  have fresh : Completes follow (Grammar.allExpressions closing) [one, bare closing] := by
    rw [allExpressions_eq]
    exact (completes_expression none).bind (fun _ _ => closes) (completes_elementEnd closes more)
  refine ⟨?_, fresh⟩
  induction n with
  | zero => exact .of_nil (.error ⟨.expectedExpression, ⟨0, 0⟩⟩) nofun rfl
  | succ n ih =>
    have others : Startable follow n 0 [one, bare closing] (Grammar.allExpressions closing) :=
      ⟨ih viable.behind, fresh⟩
    rw [allExpressions_eq]
    refine ((viable.expression none).bind [bare closing] (fun _ _ => closes) fun first => ?_)
      |>.viable.weaken
    exact ⟨viable_elementEnd more others first, completes_elementEnd closes more first⟩

theorem expressionList (closing : Token) (closes : closing.Closes) (more : closing ≠ .endOfInput) :
    Startable follow n 0 [bare closing] (expressionList Grammar.expression closing) where
  viable := by
    refine .current fun token => ?_
    split
    next here => exact .span fun stop => .past [] (here ▸ more) (.pure _)
    next => exact (viable.allExpressions closes more).viable.viableAt
  fresh rest _ := by
    have found : Tokens.current ([bare closing] ++ rest) = closing := rfl
    refine ⟨([], ⟨0, 0⟩), ?_⟩
    rw [Grammar.expressionList, Parser.run_current, found, if_pos rfl, Parser.run_span,
      Parser.run_bind, List.singleton_append, Parser.run_step_cons more]
    rfl

end ViableExpressions

namespace ViableExpressions

variable (viable : ViableExpressions (n - 1))
include viable

theorem list :
    Startable follow n 1 [bare .leftBracket, bare .rightBracket] (list Grammar.expression) := by
  have first : Startable (fun _ => True) n 1 [bare .leftBracket] (Parser.expect .leftBracket) :=
    .expect nofun nofun
  exact first.bind [bare .rightBracket] (fun _ _ => trivial) fun _ =>
    (viable.expressionList .rightBracket trivial nofun).returning

theorem unary {token : Token} (more : token ≠ .endOfInput) :
    ViableAt token Token.Closes n 1 (unary Grammar.expression) :=
  .span fun _ => .current <| .step [one] more <| (viable.expression _).returning.weaken

theorem binary {token : Token} (more : token ≠ .endOfInput) (left : Node) :
    ViableAt token Token.Closes n 1 (binary Grammar.expression left) :=
  .current <| .step [one] more <| (viable.expression _).returning.weaken

theorem call (callee : Node) :
    Startable follow n 1 [bare .leftParen, bare .rightParen] (call Grammar.expression callee) :=
  .opening nofun nofun (viable.expressionList .rightParen trivial nofun).returning

end ViableExpressions

private theorem completes_branchEnd {others : Parser (Node × Body × Branches)} (condition : Node)
    (first : Body) :
    Completes follow (branchEnd expression others condition true first)
      [bare (.keyword .endWord)] :=
  fun _ _ => ⟨_, rfl⟩

private theorem completes_branchEnd_inline {others : Parser (Node × Body × Branches)}
    (condition : Node) (first : Body) :
    Completes Token.Closes (branchEnd expression others condition false first) [] := by
  intro rest closes
  refine ⟨(condition, first, .none), ?_⟩
  rw [List.nil_append, branchEnd, Parser.run_current]
  generalize rest.current = token at closes
  unfold Token.Closes at closes
  split at closes
  all_goals first | exact closes.elim | rfl

/-- What follows the `then` of a condition. -/
private def branch (others : Parser (Node × Body × Branches)) (condition : Node) :
    Parser (Node × Body × Branches) := do
  let isBlock ← Parser.atBlockStart
  let first ← branchBody expression isBlock
  branchEnd expression others condition isBlock first

private theorem completes_branch (others : Parser (Node × Body × Branches)) (condition : Node) :
    Completes Token.Closes (branch others condition) [one] := by
  have inline : Completes Token.Closes (branchBody expression false) [one] :=
    Completes.map (completes_expression none)
  exact inline.bind (fun _ closes => closes) (completes_branchEnd_inline condition)

private theorem completes_allBranches :
    Completes Token.Closes allBranches [one, bare (.keyword .thenWord), one] := by
  have behind (condition : Node) : Completes Token.Closes (do
      discard (Parser.expect (.keyword .thenWord))
      branch allBranches condition) [bare (.keyword .thenWord), one] :=
    .pass nofun nofun (completes_branch allBranches condition)
  rw [allBranches_eq]
  exact (completes_expression none).bind (fun _ _ => trivial) behind

namespace ViableExpressions

variable (viable : ViableExpressions n)
include viable

private theorem branchEnd {others : Parser (Node × Body × Branches)} {scratch : Tokens}
    (starts : Startable Token.Closes n 0 scratch others) (condition : Node) (isBlock : Bool)
    (first : Body) :
    Viable Token.Closes n 0 (branchEnd Grammar.expression others condition isBlock first) := by
  refine .current fun token => ?_
  split
  · exact .past [] nofun (.pure _)
  · exact .past scratch nofun starts.returning
  · exact .past [one] nofun viable.body.returning
  · split
    · exact (Viable.unexpected _).viableAt
    · exact (Viable.pure _).viableAt

private theorem branch {others : Parser (Node × Body × Branches)} {scratch : Tokens}
    (starts : Startable Token.Closes n 0 scratch others) (condition : Node) :
    Startable Token.Closes n 0 [one] (branch others condition) := by
  refine ⟨.atBlockStart fun answer => ?_, completes_branch others condition⟩
  cases answer with
  | true =>
    have body : Startable EndsBlock n 0 [] (branchBody Grammar.expression true) :=
      viable.block.map
    -- A block is open until its `end`, so that is what completes it.
    refine (body.bind [bare (.keyword .endWord)] (fun _ _ => rfl) fun first => ?_).viable
    exact ⟨viable.branchEnd starts condition true first, completes_branchEnd condition first⟩
  | false =>
    have body : Startable Token.Closes n 0 [one] (branchBody Grammar.expression false) :=
      viable.statement.map.weaken
    -- A statement on the same line needs no `end`.
    refine (body.bind [] (fun _ closes => closes) fun first => ?_).viable
    exact ⟨viable.branchEnd starts condition false first,
      completes_branchEnd_inline condition first⟩

theorem allBranches :
    Startable Token.Closes n 0 [one, bare (.keyword .thenWord), one] allBranches := by
  refine ⟨?_, completes_allBranches⟩
  induction n with
  | zero => exact .of_nil (.error ⟨.expectedExpression, ⟨0, 0⟩⟩) nofun rfl
  | succ n ih =>
    have others : Startable Token.Closes n 0 [one, bare (.keyword .thenWord), one]
        Grammar.allBranches := ⟨ih viable.behind, completes_allBranches⟩
    rw [allBranches_eq]
    refine ((viable.expression none).bind [bare (.keyword .thenWord), one] (fun _ _ => trivial)
      fun condition => ?_).viable.weaken
    exact .pass nofun nofun (viable.behind.branch others condition)

end ViableExpressions

namespace ViableExpressions

variable (viable : ViableExpressions (n - 1))
include viable

theorem conditional :
    Startable Token.Closes n 1
      [bare (.keyword .ifWord), one, bare (.keyword .thenWord), one]
      (conditional Grammar.expression) :=
  .opening nofun nofun viable.allBranches.returning

theorem whileLoop :
    Startable Token.Closes n 1
      [bare (.keyword .whileWord), one, bare (.keyword .thenWord), one]
      (whileLoop Grammar.expression) := by
  refine .opening nofun nofun ?_
  refine (viable.expression none).weaken.bind [bare (.keyword .thenWord), one]
    (fun _ _ => trivial) fun condition => ?_
  exact .pass nofun nofun viable.body.returning

theorem repeatLoop :
    Startable Token.Closes n 1
      [bare (.keyword .repeatWord), one, bare (.keyword .timesWord), one]
      (repeatLoop Grammar.expression) := by
  refine .opening nofun nofun ?_
  refine (viable.expression none).weaken.bind [bare (.keyword .timesWord), one]
    (fun _ _ => trivial) fun count => ?_
  exact .pass nofun nofun (.skip nofun (fun _ _ => nofun) viable.body.returning)

omit viable in
theorem loopStep (viable : ViableExpressions n) :
    Startable Token.Closes n 0 [] (loopStep Grammar.expression) where
  viable := by
    refine .current fun token => ?_
    split
    next here => exact .past [one] (here ▸ nofun) (viable.expression none).returning.weaken
    next => exact (Viable.pure none).viableAt
  fresh rest closes := by
    have other : rest.current ≠ .keyword .stepWord := closes.ne nofun
    refine ⟨none, ?_⟩
    rw [List.nil_append, Grammar.loopStep, Parser.run_current, if_neg other]
    rfl

theorem forLoop :
    Startable Token.Closes n 1
      [bare (.keyword .forWord), bare (.ident "x"), bare .assign, one, bare (.keyword .toWord), one,
        bare (.keyword .thenWord), one]
      (forLoop Grammar.expression) := by
  refine .opening nofun nofun ?_
  refine Startable.ident.weaken.bind [bare .assign, one, bare (.keyword .toWord), one,
    bare (.keyword .thenWord), one] (fun _ _ => trivial) fun counter => ?_
  refine .pass nofun nofun ?_
  refine (viable.expression none).weaken.bind [bare (.keyword .toWord), one,
    bare (.keyword .thenWord), one] (fun _ _ => trivial) fun first => ?_
  refine .pass nofun nofun ?_
  refine (viable.expression none).weaken.bind [bare (.keyword .thenWord), one]
    (fun _ _ => trivial) fun limit => ?_
  refine viable.loopStep.bind [bare (.keyword .thenWord), one] (fun _ _ => trivial) fun step => ?_
  exact .pass nofun nofun viable.body.returning

end ViableExpressions

private theorem completes_paramEnd {others : Parser (List Ident)} (first : Ident) :
    Completes (· = .rightParen) (paramEnd others first) [] := by
  intro rest closes
  refine ⟨[first], ?_⟩
  rw [List.nil_append, paramEnd, Parser.run_current, closes]
  rfl

theorem startable_allParams :
    Startable (· = .rightParen) n 0 [bare (.ident "x")] allParams := by
  have fresh : Completes (· = .rightParen) allParams [bare (.ident "x")] := by
    rw [allParams_eq]
    exact (Startable.ident (n := 0)).fresh.bind (fun _ _ => trivial) completes_paramEnd
  refine ⟨?_, fresh⟩
  induction n with
  | zero => exact .of_nil (.error ⟨.expectedIdent, ⟨0, 0⟩⟩) nofun rfl
  | succ n ih =>
    rw [allParams_eq]
    refine (Startable.ident.bind [] (fun _ _ => trivial) fun first => ⟨?_, ?_⟩).viable.weaken
    · refine .current fun token => ?_
      split
      · exact .past [bare (.ident "x")] nofun (Startable.mk ih fresh).returning
      · exact (Viable.pure _).viableAt
      · exact (Viable.unexpected _).viableAt
    · exact completes_paramEnd first

/-- A name may be left out before the parameters. -/
theorem startable_functionName : Startable (· = .leftParen) n 0 [] functionName where
  viable := by
    refine .current fun token => Viable.viableAt ?_
    split
    · exact Startable.ident.returning.viable.weaken.mono fun _ _ => trivial
    · exact .pure none
  fresh rest opens := by
    refine ⟨none, ?_⟩
    rw [List.nil_append, functionName, Parser.run_current, opens]
    rfl

theorem startable_functionParams : Startable (· = .rightParen) n 0 [] functionParams where
  viable := by
    refine .current fun token => Viable.viableAt ?_
    split
    · exact startable_allParams.viable
    · exact .pure []
  fresh rest closes := by
    refine ⟨[], ?_⟩
    rw [List.nil_append, functionParams, Parser.run_current, closes]
    rfl

namespace ViableExpressions

theorem functionBody (viable : ViableExpressions n) :
    Startable Token.Closes n 0 [bare .arrow, one] (functionBody Grammar.expression) where
  viable := by
    refine .current fun token => ?_
    split
    · exact .past [one] nofun (viable.expression none).returning.weaken
    · exact .past [bare (.keyword .endWord)] nofun viable.closedBlock
    · exact viable.closedBlock.viable.viableAt
    · exact (Viable.unexpected _).viableAt
  fresh := (Startable.returning (g := Body.inline) (viable.expression none)).fresh

theorem function (viable : ViableExpressions (n - 1)) :
    Startable Token.Closes n 1
      [bare (.keyword .funWord), bare .leftParen, bare .rightParen, bare .arrow, one]
      (function Grammar.expression) := by
  refine .opening nofun nofun ?_
  refine startable_functionName.bind [bare .leftParen, bare .rightParen, bare .arrow, one]
    (fun _ _ => rfl) fun name => .demand nofun ?_
  refine startable_functionParams.bind [bare .rightParen, bare .arrow, one]
    (fun _ _ => rfl) fun params => .demand nofun ?_
  exact viable.functionBody.returning

end ViableExpressions

/-- An assignment, or a variable. -/
def named (precedence : Option Precedence) : Parser Node := do
  if precedence.isNone && (← Parser.peek) = .assign then assignment expression
  else return .variable (← Parser.ident)

/-- Behind a name, the sign of assignment decides what it is. -/
theorem run_named (precedence : Option Precedence) {lexeme : Lexeme} {name : String}
    (here : lexeme.token = .ident name) (left : Tokens) :
    named precedence (lexeme :: left)
      = if precedence.isNone && left.current = .assign then assignment expression (lexeme :: left)
        else .ok (.variable ⟨name, lexeme.span⟩) left := by
  rw [named, Parser.run_peek, Tokens.peek_cons]
  split
  · rfl
  · rw [Parser.run_bind, Parser.run_ident_cons here]
    rfl

namespace ViableExpressions

variable (viable : ViableExpressions (n - 1))
include viable

private theorem named (precedence : Option Precedence) (name : String) :
    ViableAt (.ident name) Token.Closes n 1 (named precedence) := by
  intro tokens here bound
  obtain ⟨lexeme, rest, rfl, same⟩ := Tokens.eq_cons_of_current (by rw [here]; exact nofun)
  have found : lexeme.token = .ident name := same.trans here
  have proper : lexeme.token ≠ .endOfInput := by rw [found]; exact nofun
  by_cases assigns : (precedence.isNone && rest.current = .assign) = true
  -- The name and the sign are passed in one go: whoever looks behind the name has seen the sign.
  · obtain ⟨isNone, next⟩ : precedence.isNone = true ∧ rest.current = .assign := by
      simpa using assigns
    obtain ⟨sign, rest, rfl, same'⟩ := Tokens.eq_cons_of_current (by rw [next]; exact nofun)
    have found' : sign.token = .assign := same'.trans next
    have value : Startable Token.Closes rest.length 0 [one] (do
        let value ← Grammar.expression none
        return Node.assign ⟨name, lexeme.span⟩ value (lexeme.span.through value.span)) :=
      ((viable.expression none).returning.shorter (by simp at bound; omega)).weaken
    refine ViableOn.through [lexeme, sign] nofun ?_ (fun left => ?_) value
    · simp [found, found']
    · have decided : (precedence.isNone && Tokens.current (sign :: left) = .assign) = true := by
        simp [isNone, Tokens.current, found']
      show Grammar.named precedence (lexeme :: sign :: left) = _
      rw [run_named precedence found, if_pos decided, assignment, Parser.run_bind,
        Parser.run_ident_cons found]
      exact Parser.run_pass found' (by simp) (by simp) left _
  -- A variable, which can be completed by nothing, since no closing token assigns.
  · have access (left : Tokens) (other : (precedence.isNone && left.current = .assign) ≠ true) :
        Grammar.named precedence (lexeme :: left) = .ok (.variable ⟨name, lexeme.span⟩) left := by
      rw [run_named precedence found, if_neg other]
    refine ⟨[lexeme], rest, .ok (.variable ⟨name, lexeme.span⟩), rfl, by simpa using proper,
      fun left heads => access left ?_, fun _ _ => Nat.le_refl _, fun _ => ⟨[], fun left closes =>
        ⟨_, access left ?_⟩⟩⟩
    · rwa [current_eq_of_head? heads]
    · have other : left.current ≠ .assign := closes.ne not_false
      simp [other]

theorem primary (precedence : Option Precedence) :
    Viable Token.Closes n 1 (primary Grammar.expression precedence) := by
  refine .span fun here => .current fun token => ?_
  cases token with
  | int | float | string => exact .step [] nofun (.pure _)
  | ident name => exact viable.named precedence name
  | leftParen =>
    refine .step [one, bare .rightParen] nofun ?_
    exact (viable.expression none).weaken.bind [bare .rightParen] (fun _ _ => trivial) fun node =>
      .pass nofun nofun (.pure node)
  | leftBracket => exact viable.list.viable.viableAt
  | plus | minus => exact viable.unary nofun
  | keyword word =>
    cases word with
    | notWord => exact viable.unary nofun
    | ifWord => exact viable.conditional.viable.viableAt
    | forWord => exact viable.forLoop.viable.viableAt
    | whileWord => exact viable.whileLoop.viable.viableAt
    | repeatWord => exact viable.repeatLoop.viable.viableAt
    | funWord => exact viable.function.viable.viableAt
    | _ => exact fun tokens _ _ => .stop (.error ⟨.expectedExpression, here⟩) nofun fun _ _ => rfl
  | _ => exact fun tokens _ _ => .stop (.error ⟨.expectedExpression, here⟩) nofun fun _ _ => rfl

omit viable in
theorem allContinuation (viable : ViableExpressions n) (precedence : Precedence) (left : Node) :
    Startable Token.Closes n 0 [] (allContinuation precedence left) := by
  have fresh (left : Node) : Completes Token.Closes (Grammar.allContinuation precedence left) [] := by
    refine fun rest closes => ⟨left, allContinuation_stop left ?_⟩
    rw [List.nil_append, closes.precedence]
    cases precedence <;> rfl
  refine ⟨?_, fresh left⟩
  induction n generalizing left with
  | zero => exact .of_nil (.ok left) (fun _ _ => rfl) rfl
  | succ n ih =>
    have others (node : Node) : Startable Token.Closes n 0 []
        (Grammar.allContinuation precedence node) := ⟨ih viable.behind node, fresh node⟩
    rw [allContinuation_eq]
    refine .current fun token => ?_
    split
    next tighter =>
      have more : token ≠ .endOfInput := by
        rintro rfl
        exact absurd tighter (by cases precedence <;> decide)
      -- A call is completed by its parenthesis and an operation by its right operand.
      have operation : ViableAt token Token.Closes (n + 1) 1
          (if token = .leftParen then Grammar.call Grammar.expression left
            else Grammar.binary Grammar.expression left) := by
        split
        · exact (viable.behind.call left).viable.viableAt
        · exact viable.behind.binary more left
      exact (operation.bind [] (fun _ closes => closes) others).weaken
    next => exact (Viable.pure left).viableAt

end ViableExpressions

/-- Whatever has been passed of an expression can be completed. -/
theorem viableExpressions (n : Nat) : ViableExpressions n := by
  induction n with
  | zero =>
    exact fun precedence => .of_nil (.error ⟨.expectedExpression, ⟨0, 0⟩⟩) nofun rfl
  | succ n ih =>
    intro precedence
    rw [expression_eq]
    -- The operand passes a token, so the induction hypothesis covers what is inside and behind it.
    have first : Startable Token.Closes (n + 1) 1 [one] (primary expression precedence) :=
      ⟨ViableExpressions.primary (n := n + 1) ih precedence, fun rest _ => ⟨_, rfl⟩⟩
    exact (first.bind [] (fun _ closes => closes) fun node => ih.allContinuation _ node).viable

/-- Before the end of the input every program can be completed. -/
theorem startable_program (n : Nat) : Startable (· = .endOfInput) n 0 [] program := by
  have ending (block : Block) : Startable (· = .endOfInput) n 0 [] (do
      if (← Parser.current) = .endOfInput then return block
      else Parser.unexpected ["end of input"]) := by
    refine ⟨.current fun token => Viable.viableAt ?_, fun rest ends => ⟨block, ?_⟩⟩
    · split
      · exact .pure block
      · exact .unexpected _
    · rw [List.nil_append, Parser.run_current, if_pos ends]
      rfl
  rw [program, complete_block_eq]
  exact (viableExpressions n).block.bind [] (fun _ => congrArg Token.isBlockEnd) ending

end Grammar

end Primer
