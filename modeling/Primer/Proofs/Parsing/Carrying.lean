import Primer.Proofs.Parsing.Seam

/-!
# The grammar across a seam

Every construct of the grammar that ends before or at the seam is carried over. A block is the one that
does not: at the seam it ends on the first list and goes on on the second. Inside a construct this makes
no difference, since what closes a block there is missing at the end of the first list; at the top it
is what puts the statements of the two lists one behind the other.
-/

namespace Primer

namespace Seam

open Grammar

variable {S : Seam} {n : Nat}

/-- The expressions of fewer than `n` tokens are carried over. -/
def Inners (S : Seam) (n : Nat) : Prop :=
  ∀ precedence, S.Carries n 1 (Node.shift S.offset) (expression precedence) (expression precedence)

theorem Inners.shorter {m : Nat} (inners : S.Inners n) (fewer : m ≤ n) : S.Inners m :=
  fun precedence => (inners precedence).shorter fewer

theorem Inners.behind (inners : S.Inners n) : S.Inners (n - 1) :=
  inners.shorter (Nat.sub_le _ _)

/-! ### Statements and blocks -/

namespace Inners

theorem statement (inners : S.Inners n) :
    S.Carries n 1 (Node.shift S.offset) (statement expression) (statement expression) := by
  refine .here (fun span token => ?_) fun span span' token token' stops stops' bound => ?_
  · split
    -- `return`, behind which a value may stand
    · refine .step (.current (fun token => ?_) fun token token' stops stops' _ => ?_)
      · split
        · exact (Carries.pure rfl).carriesAt
        · refine Carries.carriesAt ?_
          refine (inners.behind none).weaken.bind fun value => .pure ?_
          simp [Node.shift, Span.shift_through]
      · rcases stops with rfl | rfl <;> rcases stops' with rfl | rfl <;> exact .pure rfl
    · exact .step (.pure rfl)
    · exact .step (.pure rfl)
    · exact (inners none).carriesAt
  · rcases stops with rfl | rfl <;> rcases stops' with rfl | rfl <;>
      exact (inners none).carriesOver bound

end Inners

/-- Newlines before the seam are skipped on both sides, and those up to it lead on the first list to
the end and on the second to what stands behind the seam. -/
theorem Matches.skipNewlines {tokens tokens' : Tokens} (matched : S.Matches tokens tokens') :
    (∃ lexeme rest rest', tokens.skipNewlines = lexeme :: rest ∧
      tokens'.skipNewlines = lexeme.shift S.offset :: rest' ∧ lexeme.token ≠ .endOfInput ∧
      S.Matches rest rest') ∨
    tokens.skipNewlines.current = .endOfInput ∧ tokens'.skipNewlines = S.after.skipNewlines := by
  induction matched with
  | seam => exact .inr ⟨S.ends, rfl⟩
  | @cons lexeme rest rest' more behind ih =>
    by_cases newline : lexeme.token = .newline
    · have newline' : (lexeme.shift S.offset).token = .newline := newline
      simpa only [Tokens.skipNewlines, newline, newline', if_true] using ih
    · have newline' : (lexeme.shift S.offset).token ≠ .newline := newline
      simp only [Tokens.skipNewlines, newline, newline', if_false]
      exact .inl ⟨lexeme, rest, rest', rfl, rfl, more, behind⟩

theorem Matches.stops {tokens tokens' : Tokens} (matched : S.Matches tokens tokens')
    (stops : tokens.current.Stops) : tokens'.current.Stops := by
  cases matched with
  | seam => exact S.after_stops
  | cons => exact stops

/-- What follows a statement at the end of a line are the statements of the lines behind. -/
private theorem statementEnd_stops {tokens left : Tokens} {nodes : List Node} {first : Node}
    (stops : tokens.current.Stops) :
    statementEnd allStatements first tokens = .ok nodes left ↔
      ∃ others, nodes = first :: others ∧ allStatements tokens.skipNewlines = .ok others left := by
  rw [statementEnd, Parser.run_current]
  rcases stops with newline | ends
  · rw [newline]
    constructor
    · intro parsed
      have parsed : (allStatements >>= fun others => pure (first :: others)) tokens.skipNewlines
          = .ok nodes left := parsed
      obtain ⟨others, _, behind, result⟩ := Parser.run_bind_eq_ok.mp parsed
      cases result
      exact ⟨others, rfl, behind⟩
    · rintro ⟨others, rfl, behind⟩
      exact Parser.run_bind_ok behind
  · rw [Tokens.skipNewlines_of_ne (by simp [ends]), allStatements_end (by rw [ends]; rfl), ends]
    constructor
    · intro parsed
      cases parsed
      exact ⟨[], rfl, rfl⟩
    · rintro ⟨others, rfl, behind⟩
      cases behind
      rfl

/-- What follows a statement in the middle of a line can only be the end of its block. -/
private theorem statementEnd_inside {tokens : Tokens} (inside : tokens.current ≠ .newline)
    (first : Node) :
    statementEnd allStatements first tokens =
      if tokens.current.isBlockEnd then .ok [first] tokens
      else .error (tokens.unexpected ["a newline or `;`", "an operator"]) tokens := by
  rw [statementEnd, Parser.run_current]
  generalize tokens.current = token at inside ⊢
  cases token with
  | newline => exact absurd rfl inside
  | keyword word => cases word <;> rfl
  | _ => rfl

/-- A block that does not end at once starts with a statement. -/
private theorem allStatements_first {tokens : Tokens} (more : ¬ tokens.current.isBlockEnd = true) :
    allStatements tokens = (statement expression >>= statementEnd allStatements) tokens := by
  conv_lhs => rw [allStatements_eq, statementsOver, Parser.run_current, if_neg more]

/-- The statements of a block end before the seam on both sides, or on the first list they reach the
end, and then on the second those behind the seam follow. -/
inductive Joins (S : Seam) (length : Nat) (nodes : List Node) (left : Tokens)
    (result : EStateM.Result ParseError Tokens (List Node)) : Prop
  | inside {left' : Tokens} (same : result = .ok (nodes.map (Node.shift S.offset)) left')
      (more : left.current ≠ .endOfInput) (matched : S.Matches left left')
      (fewer : left.length ≤ length)
  | beyond (ends : left.current = .endOfInput)
      (goesOn : ∀ nodes' left', allStatements S.after.skipNewlines = .ok nodes' left' →
        result = .ok (nodes.map (Node.shift S.offset) ++ nodes') left')

theorem Joins.longer {length length' : Nat} {nodes : List Node} {left : Tokens}
    {result : EStateM.Result ParseError Tokens (List Node)} (joins : S.Joins length nodes left result)
    (more : length ≤ length') : S.Joins length' nodes left result := by
  cases joins with
  | inside same more matched fewer => exact .inside same more matched (by omega)
  | beyond ends goesOn => exact .beyond ends goesOn

namespace Inners

/-- One statement, and then the lines behind it. -/
private theorem joins_first (inners : S.Inners n) {tokens tokens' left : Tokens} {nodes : List Node}
    (lines : ∀ {next next' others}, S.Matches next next' → next.length + 1 < n →
      Grammar.allStatements next.skipNewlines = .ok others left →
      S.Joins next.length others left (Grammar.allStatements next'.skipNewlines))
    (matched : S.Matches tokens tokens') (bound : tokens.length < n)
    (parsed : (Grammar.statement expression >>= statementEnd Grammar.allStatements) tokens
      = .ok nodes left) :
    S.Joins tokens.length nodes left
      ((Grammar.statement expression >>= statementEnd Grammar.allStatements) tokens') := by
  obtain ⟨node, next, first, parsed⟩ := Parser.run_bind_eq_ok.mp parsed
  obtain ⟨next', first', behind, passed⟩ := inners.statement _ _ matched bound node next first
  rw [Parser.run_bind_ok first']
  by_cases stops : next.current.Stops
  · obtain ⟨others, rfl, rest⟩ := (statementEnd_stops stops).mp parsed
    have stops' := behind.stops stops
    cases lines behind (by omega) rest with
    | inside same more matched fewer =>
      exact .inside ((statementEnd_stops stops').mpr ⟨_, rfl, same⟩) more matched (by omega)
    | beyond ends goesOn =>
      refine .beyond ends fun nodes' left' after => ?_
      exact (statementEnd_stops stops').mpr ⟨_, rfl, goesOn nodes' left' after⟩
  · have inside : next.current ≠ .newline := fun newline => stops (.inl newline)
    rw [statementEnd_inside inside] at parsed
    split at parsed
    next closes =>
      cases parsed
      cases behind with
      | seam => exact absurd S.before_stops stops
      | @cons lexeme rest rest' more behind =>
        have closes' : (Tokens.current (lexeme.shift S.offset :: rest')).isBlockEnd = true := closes
        have inside' : Tokens.current (lexeme.shift S.offset :: rest') ≠ .newline := inside
        refine .inside ?_ more (.cons more behind) (Nat.le_of_succ_le passed)
        rw [statementEnd_inside inside', if_pos closes']
        rfl
    next => cases parsed

theorem allStatements (inners : S.Inners n) {tokens tokens' left : Tokens} {nodes : List Node}
    (matched : S.Matches tokens tokens') (bound : tokens.length < n)
    (parsed : allStatements tokens.skipNewlines = .ok nodes left) :
    S.Joins tokens.length nodes left (Grammar.allStatements tokens'.skipNewlines) := by
  induction n generalizing tokens tokens' nodes with
  | zero => exact absurd bound (Nat.not_lt_zero _)
  | succ n ih =>
    rcases matched.skipNewlines with ⟨lexeme, rest, rest', here, here', more, behind⟩ | ⟨ends, same⟩
    · have fewer := tokens.length_skipNewlines_le
      have matched : S.Matches (lexeme :: rest) (lexeme.shift S.offset :: rest') := .cons more behind
      rw [here] at parsed fewer
      rw [here']
      by_cases closes : lexeme.token.isBlockEnd = true
      -- The block ends at once, before the seam.
      · have ended : Grammar.allStatements (lexeme :: rest) = .ok [] (lexeme :: rest) :=
          allStatements_end closes
        rw [ended] at parsed
        cases parsed
        exact .inside (allStatements_end closes) more matched fewer
      · have first : Grammar.allStatements (lexeme :: rest)
            = (Grammar.statement expression >>= statementEnd Grammar.allStatements)
              (lexeme :: rest) := allStatements_first closes
        have first' : Grammar.allStatements (lexeme.shift S.offset :: rest')
            = (Grammar.statement expression >>= statementEnd Grammar.allStatements)
              (lexeme.shift S.offset :: rest') := allStatements_first closes
        rw [first] at parsed
        rw [first']
        -- The lines behind a statement have fewer tokens.
        have lines {next next' : Tokens} {others : List Node} (matched : S.Matches next next')
            (bound : next.length + 1 < n + 1)
            (parsed : Grammar.allStatements next.skipNewlines = .ok others left) :
            S.Joins next.length others left (Grammar.allStatements next'.skipNewlines) :=
          ih (inners.shorter (Nat.le_succ n)) matched (Nat.lt_of_succ_lt_succ bound) parsed
        exact (joins_first inners lines matched (by omega) parsed).longer fewer
    · rw [allStatements_end (by rw [ends]; rfl)] at parsed
      cases parsed
      refine .beyond ends fun nodes' left' behind => ?_
      rw [same]
      exact behind

theorem block (inners : S.Inners n) :
    S.CarriesInside n (Block.shift S.offset) (block expression) (block expression) := by
  intro tokens tokens' matched bound result left parsed more
  have parsed : (Grammar.allStatements >>= fun nodes =>
      pure ⟨nodes, blockSpan tokens.span.start nodes⟩) tokens.skipNewlines = .ok result left := parsed
  obtain ⟨nodes, _, statements, ok⟩ := Parser.run_bind_eq_ok.mp parsed
  cases ok
  cases inners.allStatements matched bound statements with
  | @inside left' same _ behind fewer =>
    refine ⟨left', ?_, behind, fewer⟩
    rw [run_block same, Block.shift]
    cases matched with
    | seam =>
      -- At the seam the first list has ended.
      rw [allStatements_end (by rw [S.ends]; rfl)] at statements
      cases statements
      exact absurd S.ends more
    | cons => rw [← blockSpan_shift]; rfl
  | beyond ends => exact absurd ends more

/-- No closing token stands where the first list has ended. -/
private theorem run_pass_end {α : Type} {token : Token} {f : Unit → Parser α} {left : Tokens}
    (proper : token.Proper) (exact : ∀ value, token ≠ .float value)
    (ends : left.current = .endOfInput) :
    ∃ error left', (Functor.discard (Parser.expect token) >>= f) left = .error error left' := by
  have missing : left.current.agrees token = false := by
    refine Bool.eq_false_iff.mpr fun agrees => proper.2 ?_
    rw [← (Token.agrees_iff exact).mp agrees, ends]
  have fails : Functor.discard (Parser.expect token) left
      = .error (left.unexpected ["`" ++ token.literal ++ "`"]) left := by
    show ((fun _ => ()) <$> Parser.expect token : Parser Unit) left = _
    rw [map_eq_pure_bind, Parser.run_bind, Parser.run_expect_error missing]
  rw [Parser.run_bind, fails]
  exact ⟨_, _, rfl⟩

theorem closedBlock (inners : S.Inners n) :
    S.Carries n 0 (Body.shift S.offset) (closedBlock expression) (closedBlock expression) := by
  refine inners.block.bind (fun block left => run_pass_end (by decide) nofun) fun block => ?_
  exact .pass (by decide) nofun (.pure (block.toBody_shift S.offset))

theorem body (inners : S.Inners n) :
    S.Carries n 0 (Body.shift S.offset) (body expression) (body expression) := by
  refine .atBlockStart fun answer => ?_
  split
  · exact inners.closedBlock
  · exact inners.statement.weaken.bind fun statement => .skip (by decide) (.pure rfl)

/-! ### Lists -/

/-- Expressions and the span of the token behind them, moved. -/
abbrev listed (S : Seam) : List Node × Span → List Node × Span :=
  Prod.map (List.map (Node.shift S.offset)) (Span.shift S.offset)

theorem elementEnd {closing : Token} {others : Parser (List Node × Span)} (proper : closing.Proper)
    (rest : S.Carries n 0 (listed S) others others) (first : Node) :
    S.Carries n 0 (listed S) (elementEnd closing others first)
      (elementEnd closing others (first.shift S.offset)) := by
  refine .current (fun token => ?_) fun token token' stops stops' bound => ?_
  · split
    · exact .passing (rest.bind fun ⟨others, stop⟩ => .pure rfl)
    · split
      · exact .span fun stop => .passing (.pure rfl)
      · exact (Carries.unexpected _).carriesAt
  · rw [if_neg (stops.ne (by decide)), if_neg (stops.ne proper)]
    exact (Carries.unexpected _).carriesOver bound

theorem allExpressions (inners : S.Inners n) {closing : Token} (proper : closing.Proper) :
    S.Carries n 0 (listed S) (allExpressions closing) (allExpressions closing) := by
  induction n with
  | zero => exact .zero
  | succ n ih =>
    rw [allExpressions_eq]
    refine ((inners none).bind fun first => ?_).weaken
    exact elementEnd proper (ih (inners.shorter (Nat.le_succ n))) first

theorem expressionList (inners : S.Inners n) {closing : Token} (proper : closing.Proper) :
    S.Carries n 0 (listed S) (expressionList expression closing)
      (expressionList expression closing) := by
  refine .current (fun token => ?_) fun token token' stops stops' bound => ?_
  · split
    · exact .span fun stop => .passing (.pure rfl)
    · exact (inners.allExpressions proper).carriesAt
  · rw [if_neg (stops.ne proper), if_neg (stops'.ne proper)]
    exact (inners.allExpressions proper).carriesOver bound

theorem list (inners : S.Inners (n - 1)) :
    S.Carries n 1 (Node.shift S.offset) (list expression) (list expression) := by
  have opens : S.Carries n 1 (Span.shift S.offset) (Parser.expect .leftBracket)
      (Parser.expect .leftBracket) := .expect (by decide) nofun
  refine opens.bind fun first => ?_
  refine (inners.expressionList (by decide)).bind fun ⟨elements, last⟩ => .pure ?_
  simp [Node.shift, Span.shift_through]

theorem assignment (inners : S.Inners (n - 1)) :
    S.Carries n 1 (Node.shift S.offset) (assignment expression) (assignment expression) := by
  refine Carries.ident.bind fun target => .pass (by decide) nofun ?_
  refine (inners none).weaken.bind fun value => .pure ?_
  simp [Node.shift, Ident.shift, Span.shift_through]

theorem unary (inners : S.Inners (n - 1)) {token : Token} :
    S.CarriesAt token n 1 (Node.shift S.offset) (unary expression) (unary expression) := by
  refine .span fun here => .current (.step ?_)
  refine (inners _).weaken.bind fun operand => .pure ?_
  simp [Node.shift, Span.shift_through]

theorem binary (inners : S.Inners (n - 1)) {token : Token} (left : Node) :
    S.CarriesAt token n 1 (Node.shift S.offset) (binary expression left)
      (binary expression (left.shift S.offset)) := by
  refine .current (.step ?_)
  refine (inners _).weaken.bind fun right => .pure ?_
  simp [Node.shift, Span.shift_through]

theorem call (inners : S.Inners (n - 1)) (callee : Node) :
    S.Carries n 1 (Node.shift S.offset) (call expression callee)
      (call expression (callee.shift S.offset)) := by
  refine .opening (by decide) nofun ?_
  refine (inners.expressionList (by decide)).bind fun ⟨arguments, last⟩ => .pure ?_
  simp [Node.shift, Span.shift_through, Option.getD_map]

/-! ### Conditionals and loops -/

/-- A condition, its body and the branches after it, moved. -/
abbrev branched (S : Seam) : Node × Body × Branches → Node × Body × Branches :=
  Prod.map (Node.shift S.offset) (Prod.map (Body.shift S.offset) (Branches.shift S.offset))

theorem branchEnd (inners : S.Inners n) {others : Parser (Node × Body × Branches)}
    (rest : S.Carries n 0 (branched S) others others) (condition : Node) (isBlock : Bool)
    (first : Body) :
    S.Carries n 0 (branched S) (branchEnd expression others condition isBlock first)
      (branchEnd expression others (condition.shift S.offset) isBlock (first.shift S.offset)) := by
  refine .current (fun token => ?_) fun token token' stops stops' bound => ?_
  · split
    -- `end`, `elif`, `else`, or the end of a body on the same line
    · exact .passing (.pure rfl)
    · exact .passing (rest.bind fun ⟨next, second, others⟩ => .pure rfl)
    · exact .passing (inners.body.bind fun last => .pure rfl)
    · split
      · exact (Carries.unexpected _).carriesAt
      · exact (Carries.pure rfl).carriesAt
  · cases isBlock with
    | true =>
      refine .error ?_
      rcases stops with rfl | rfl <;> exact ⟨_, _, rfl⟩
    | false =>
      rcases stops with rfl | rfl <;> rcases stops' with rfl | rfl <;> exact .pure rfl

theorem branchesOver (inners : S.Inners n) {others : Parser (Node × Body × Branches)}
    (rest : S.Carries (n - 1) 0 (branched S) others others) :
    S.Carries n 0 (branched S) (branchesOver expression others) (branchesOver expression others) := by
  have behind := inners.behind
  refine Carries.weaken (d := 1) ?_
  refine (inners none).bind fun condition => .pass (by decide) nofun (.atBlockStart fun isBlock => ?_)
  cases isBlock with
  | true =>
    show S.Carries (n - 1) 0 (branched S)
      ((Block.toBody <$> Grammar.block expression) >>= _)
      ((Block.toBody <$> Grammar.block expression) >>= _)
    rw [bind_map_left, bind_map_left]
    refine behind.block.bind (fun block left ends => ?_) fun block => ?_
    -- Behind a block another branch or an `end` has to follow.
    · rw [Grammar.branchEnd, Parser.run_current, ends]
      exact ⟨_, _, rfl⟩
    · rw [Block.toBody_shift]
      exact behind.branchEnd rest condition true block.toBody
  | false =>
    have first : S.Carries (n - 1) 1 (Body.shift S.offset)
        (Body.inline <$> Grammar.statement expression)
        (Body.inline <$> Grammar.statement expression) := behind.statement.map fun _ => rfl
    exact first.weaken.bind fun first => behind.branchEnd rest condition false first

theorem allBranches (inners : S.Inners n) :
    S.Carries n 0 (branched S) allBranches allBranches := by
  induction n with
  | zero => exact .zero
  | succ n ih =>
    rw [allBranches_eq]
    exact inners.branchesOver (ih (inners.shorter (Nat.le_succ n)))

theorem conditional (inners : S.Inners (n - 1)) :
    S.Carries n 1 (Node.shift S.offset) (conditional expression) (conditional expression) := by
  have branches := inners.allBranches
  refine .opening (by decide) nofun (branches.bind fun ⟨condition, first, others⟩ => .pure ?_)
  simp [Node.shift, Span.shift_through]

theorem loopStep (inners : S.Inners n) :
    S.Carries n 0 (Option.map (Node.shift S.offset)) (loopStep expression) (loopStep expression) := by
  refine .current (fun token => ?_) fun token token' stops stops' bound => ?_
  · split
    · exact .passing ((inners none).weaken.bind fun step => .pure rfl)
    · exact (Carries.pure rfl).carriesAt
  · rw [if_neg (stops.ne (by decide)), if_neg (stops'.ne (by decide))]
    exact .pure rfl

theorem forLoop (inners : S.Inners (n - 1)) :
    S.Carries n 1 (Node.shift S.offset) (forLoop expression) (forLoop expression) := by
  refine .opening (by decide) nofun (Carries.ident.weaken.bind fun counter => ?_)
  refine .pass (by decide) nofun ((inners none).weaken.bind fun first => ?_)
  refine .pass (by decide) nofun ((inners none).weaken.bind fun limit => ?_)
  refine inners.loopStep.bind fun step => .pass (by decide) nofun ?_
  refine inners.body.bind fun body => .pure ?_
  simp [Node.shift, Ident.shift, Span.shift_through]

theorem whileLoop (inners : S.Inners (n - 1)) :
    S.Carries n 1 (Node.shift S.offset) (whileLoop expression) (whileLoop expression) := by
  refine .opening (by decide) nofun ((inners none).weaken.bind fun condition => ?_)
  refine .pass (by decide) nofun (inners.body.bind fun body => .pure ?_)
  simp [Node.shift, Span.shift_through]

theorem repeatLoop (inners : S.Inners (n - 1)) :
    S.Carries n 1 (Node.shift S.offset) (repeatLoop expression) (repeatLoop expression) := by
  refine .opening (by decide) nofun ((inners none).weaken.bind fun count => ?_)
  refine .pass (by decide) nofun (.skip (by decide) (inners.body.bind fun body => .pure ?_))
  simp [Node.shift, Span.shift_through]

end Inners

/-! ### Functions -/

theorem carries_paramEnd {others : Parser (List Ident)}
    (rest : S.Carries n 0 (List.map (Ident.shift S.offset)) others others) (first : Ident) :
    S.Carries n 0 (List.map (Ident.shift S.offset)) (paramEnd others first)
      (paramEnd others (first.shift S.offset)) := by
  refine .current (fun token => ?_) fun token token' stops stops' bound => ?_
  · split
    · exact .passing (rest.bind fun others => .pure rfl)
    · exact (Carries.pure rfl).carriesAt
    · exact (Carries.unexpected _).carriesAt
  · refine .error ?_
    rcases stops with rfl | rfl <;> exact ⟨_, _, rfl⟩

theorem carries_allParams :
    S.Carries n 0 (List.map (Ident.shift S.offset)) allParams allParams := by
  induction n with
  | zero => exact .zero
  | succ n ih =>
    rw [allParams_eq]
    exact Carries.weaken (d := 1) (Carries.ident.bind fun first => carries_paramEnd ih first)

theorem carries_functionName :
    S.Carries n 0 (Option.map (Ident.shift S.offset)) functionName functionName := by
  refine .current (fun token => ?_) fun token token' stops stops' _ => ?_
  · split
    · refine Carries.carriesAt ?_
      exact Carries.ident.weaken.bind fun name => .pure rfl
    · exact (Carries.pure rfl).carriesAt
  · rcases stops with rfl | rfl <;> rcases stops' with rfl | rfl <;> exact .pure rfl

theorem carries_functionParams :
    S.Carries n 0 (List.map (Ident.shift S.offset)) functionParams functionParams := by
  refine .current (fun token => ?_) fun token token' stops stops' _ => ?_
  · split
    · exact carries_allParams.carriesAt
    · exact (Carries.pure rfl).carriesAt
  · rcases stops with rfl | rfl <;> rcases stops' with rfl | rfl <;> exact .pure rfl

/-- A block at the seam is not closed. -/
private theorem closedBlock_fails :
    ∃ error left, closedBlock expression S.before = .error error left := by
  have ends : EndsBlock S.before.skipNewlines.current := by
    rw [S.ends]
    rfl
  rw [closedBlock, Parser.run_bind_ok (run_block (allStatements_end ends))]
  exact Inners.run_pass_end (by decide) nofun S.ends

namespace Inners

theorem functionBody (inners : S.Inners n) :
    S.Carries n 0 (Body.shift S.offset) (functionBody expression) (functionBody expression) := by
  refine .current (fun token => ?_) fun token token' stops stops' bound => ?_
  · split
    · exact .passing ((inners none).weaken.bind fun value => .pure rfl)
    · exact .passing inners.closedBlock
    · exact inners.closedBlock.carriesAt
    · exact (Carries.unexpected _).carriesAt
  · refine .error ?_
    rcases stops with rfl | rfl
    · exact closedBlock_fails
    · exact ⟨_, _, rfl⟩

theorem function (inners : S.Inners (n - 1)) :
    S.Carries n 1 (Node.shift S.offset) (function expression) (function expression) := by
  refine .opening (by decide) nofun (carries_functionName.bind fun name => ?_)
  refine .demand (by decide) (carries_functionParams.bind fun params => .demand (by decide) ?_)
  refine inners.functionBody.bind fun body => .pure ?_
  simp [Node.shift, Span.shift_through]

/-! ### Expressions -/

theorem primary (inners : S.Inners (n - 1)) (precedence : Option Precedence) :
    S.Carries n 1 (Node.shift S.offset) (primary expression precedence)
      (primary expression precedence) := by
  refine .here (fun here token => ?_) fun span span' token token' stops stops' bound => ?_
  · -- The current token picks the construct.
    cases token with
    | int | float => exact .step (.pure rfl)
    | string => exact .step (.pure rfl)
    | ident =>
      have access : S.Carries n 1 (Node.shift S.offset) (Node.variable <$> Parser.ident)
          (Node.variable <$> Parser.ident) := Carries.ident.map fun _ => rfl
      rw [map_eq_pure_bind] at access
      refine .peek fun second second' same => ?_
      rcases same with rfl | ⟨stops, stops'⟩
      · split
        · exact inners.assignment.carriesAt
        · exact access.carriesAt
      · -- No assignment starts at the seam.
        have other {token : Token} (stops : token.Stops) :
            ¬ (precedence.isNone && decide (token = .assign)) = true := by
          simp [stops.ne (by decide : Token.Proper .assign)]
        rw [if_neg (other stops), if_neg (other stops')]
        exact access.carriesAt
    | leftParen =>
      exact .step ((inners none).weaken.bind fun node => .pass (by decide) nofun (.pure rfl))
    | leftBracket => exact inners.list.carriesAt
    | plus | minus => exact inners.unary
    | keyword word =>
      cases word with
      | notWord => exact inners.unary
      | ifWord => exact inners.conditional.carriesAt
      | forWord => exact inners.forLoop.carriesAt
      | whileWord => exact inners.whileLoop.carriesAt
      | repeatWord => exact inners.repeatLoop.carriesAt
      | funWord => exact inners.function.carriesAt
      | _ => exact .error fun tokens => rfl
    | _ => exact .error fun tokens => rfl
  · refine .error ?_
    rcases stops with rfl | rfl <;> exact ⟨_, _, rfl⟩

end Inners

/-- No operator follows at the seam. -/
private theorem looser_stops {token : Token} (stops : token.Stops) (precedence : Precedence) :
    ¬ precedence.looser token.precedence = true := by
  rw [stops.closes.precedence]
  cases precedence <;> decide

namespace Inners

theorem continuationOver (inners : S.Inners (n - 1)) (precedence : Precedence)
    {others : Node → Parser Node}
    (rest : ∀ node, S.Carries (n - 1) 0 (Node.shift S.offset) (others node)
      (others (node.shift S.offset))) (left : Node) :
    S.Carries n 0 (Node.shift S.offset) (continuationOver expression precedence others left)
      (continuationOver expression precedence others (left.shift S.offset)) := by
  refine .current (fun token => ?_) fun token token' stops stops' bound => ?_
  · split
    · refine CarriesAt.weaken (d := 1) ?_
      split
      · exact ((inners.call left).bind rest).carriesAt
      · exact (inners.binary left).bind rest
    · exact (Carries.pure rfl).carriesAt
  · rw [if_neg (looser_stops stops precedence), if_neg (looser_stops stops' precedence)]
    exact .pure rfl

theorem allContinuation (inners : S.Inners n) (precedence : Precedence) (left : Node) :
    S.Carries n 0 (Node.shift S.offset) (allContinuation precedence left)
      (allContinuation precedence (left.shift S.offset)) := by
  induction n generalizing left with
  | zero => exact .zero
  | succ n ih =>
    have behind := inners.shorter (Nat.le_succ n)
    rw [allContinuation_eq, allContinuation_eq precedence (left.shift S.offset)]
    exact behind.continuationOver precedence (ih behind) left

end Inners

/-- Every expression that ends before the seam or at it is carried over. -/
theorem inners (S : Seam) (n : Nat) : S.Inners n := by
  -- An inner expression has fewer tokens to itself than the one around it.
  induction n with
  | zero => exact fun _ => .zero
  | succ n ih =>
    intro precedence
    rw [expression_eq]
    exact (ih.primary precedence).bind fun first => ih.allContinuation _ first

end Seam

end Primer
