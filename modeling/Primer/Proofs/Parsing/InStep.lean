import Primer.Proofs.Parsing.Simulation
import Primer.Proofs.Parsing.Turn

/-!
# The grammar in step

Every construct of the grammar runs in step with itself under a lawful simulation, whatever the parsers
for the expressions inside it, as long as those run in step. Constructs that pass a token of their own
first ask this of the inner parsers for shorter lists only, which is what makes two budgets agree: both
exceed the tokens there are, and each construct passes one before it spends a unit.
-/

namespace Primer

namespace Simulation

open Grammar (Inner)

variable {S : Simulation} {n : Nat} {inner inner' : Inner}

/-- Parsers for inner expressions in step on lists of at most `n` tokens. -/
def Inners (S : Simulation) (n : Nat) (inner inner' : Inner) : Prop :=
  ∀ precedence, S.Related n 1 S.nodes (inner precedence) (inner' precedence)

/-- Blocks in step, as the contents of a program and as bodies. -/
def blocks (S : Simulation) (block block' : Block) : Prop :=
  List.Forall₂ S.nodes block.statements block'.statements ∧
    S.bodies block.toBody block'.toBody

namespace Inners

theorem behind (inners : S.Inners n inner inner') : S.Inners (n - 1) inner inner' :=
  fun precedence => (inners precedence).shorter (Nat.sub_le _ _)

theorem statement (inners : S.Inners n inner inner') (lawful : S.Lawful) :
    S.Related n 1 S.nodes (Grammar.statement inner) (Grammar.statement inner') := by
  refine .span lawful fun here here' spans => .current lawful fun token => ?_
  split
  -- `return`, behind which a value may stand
  · refine .step lawful nofun (.current lawful fun token => Related.relatedAt ?_)
    split
    · exact .pure (lawful.returnNothing spans)
    · exact (inners.behind none).weaken.bind fun value value' values =>
        .pure (lawful.returnValue spans values)
  · exact .step lawful nofun (.pure (lawful.continuing spans))
  · exact .step lawful nofun (.pure (lawful.breaking spans))
  · exact (inners none).relatedAt

theorem statementsOver {others others' : Parser (List Node)} (inners : S.Inners n inner inner')
    (lawful : S.Lawful) (rest : S.Related (n - 1) 0 (List.Forall₂ S.nodes) others others') :
    S.Related n 0 (List.Forall₂ S.nodes) (Grammar.statementsOver inner others)
      (Grammar.statementsOver inner' others') := by
  refine .current lawful fun token => Related.relatedAt ?_
  split
  · exact .pure .nil
  -- A statement passes a token, so the others are left with one fewer.
  · refine ((inners.statement lawful).first fun first first' firsts => ?_).weaken
    refine .current lawful fun token => Related.relatedAt ?_
    split
    · exact .skipNewlines lawful (rest.bind fun _ _ nodes => .pure (.cons firsts nodes))
    · split
      · exact .pure (.cons firsts .nil)
      · exact .unexpected lawful _

theorem statements (inners : S.Inners n inner inner') (lawful : S.Lawful) (budget : Nat) :
    S.Related n 0 (List.Forall₂ S.nodes) (Grammar.statements inner budget)
      (Grammar.statements inner' budget) := by
  induction budget with
  | zero => exact .pure .nil
  | succ budget ih => exact inners.statementsOver lawful (ih.shorter (Nat.sub_le _ _))

theorem block (inners : S.Inners n inner inner') (lawful : S.Lawful) :
    S.Related n 0 S.blocks (Grammar.block inner) (Grammar.block inner') := by
  refine .span lawful fun here here' spans => .skipNewlines lawful ?_
  refine .budget fun left left' length => length ▸ ?_
  exact (inners.statements lawful left.length).bind fun nodes nodes' same =>
    .pure ⟨same, lawful.block spans same⟩

theorem closedBlock (inners : S.Inners n inner inner') (lawful : S.Lawful) :
    S.Related n 0 S.bodies (Grammar.closedBlock inner) (Grammar.closedBlock inner') :=
  (inners.block lawful).bind fun _ _ blocks => .pass lawful nofun nofun (.pure blocks.2)

theorem body (inners : S.Inners n inner inner') (lawful : S.Lawful) :
    S.Related n 0 S.bodies (Grammar.body inner) (Grammar.body inner') := by
  refine .atBlockStart lawful fun answer => ?_
  split
  · exact inners.closedBlock lawful
  · exact (inners.statement lawful).weaken.bind fun _ _ statements =>
      .skip lawful (.pure (lawful.inline statements))

/-- Expressions and the span of the token behind them. -/
abbrev listed (S : Simulation) (result result' : List Node × Span) : Prop :=
  List.Forall₂ S.nodes result.1 result'.1 ∧ S.spans result.2 result'.2

theorem expressionsOver {others others' : Parser (List Node × Span)} {closing : Token}
    (inners : S.Inners n inner inner') (lawful : S.Lawful)
    (rest : S.Related (n - 1) 0 (listed S) others others') :
    S.Related n 0 (listed S) (Grammar.expressionsOver inner closing others)
      (Grammar.expressionsOver inner' closing others') := by
  refine ((inners none).first fun first first' firsts => ?_).weaken
  refine .current lawful fun token => Related.relatedAt ?_
  split
  · exact .step lawful (rest.bind fun _ _ same => .pure ⟨.cons firsts same.1, same.2⟩)
  · split
    · exact .span lawful fun stop stop' stops =>
        .step lawful (.pure ⟨.cons firsts .nil, stops⟩)
    · exact .unexpected lawful _

theorem expressions (inners : S.Inners n inner inner') (lawful : S.Lawful) (closing : Token)
    (budget : Nat) :
    S.Related n 0 (listed S) (Grammar.expressions inner closing budget)
      (Grammar.expressions inner' closing budget) := by
  induction budget with
  | zero => exact .expectedExpression lawful
  | succ budget ih => exact inners.expressionsOver lawful (ih.shorter (Nat.sub_le _ _))

theorem expressionList (inners : S.Inners n inner inner') (lawful : S.Lawful) (closing : Token) :
    S.Related n 0 (listed S) (Grammar.expressionList inner closing)
      (Grammar.expressionList inner' closing) := by
  refine .current lawful fun token => Related.relatedAt ?_
  split
  · exact .span lawful fun stop stop' stops => .step lawful (.pure ⟨.nil, stops⟩)
  · exact .budget fun left left' length => length ▸ inners.expressions lawful closing left.length

theorem list (inners : S.Inners (n - 1) inner inner') (lawful : S.Lawful) :
    S.Related n 1 S.nodes (Grammar.list inner) (Grammar.list inner') :=
  have first : S.Related n 1 S.spans (Parser.expect .leftBracket) (Parser.expect .leftBracket) :=
    .expect lawful nofun nofun
  first.first fun _ _ firsts => (inners.expressionList lawful _).bind fun _ _ same =>
    .pure (lawful.list firsts same.2 same.1)

theorem assignment (inners : S.Inners (n - 1) inner inner') (lawful : S.Lawful) :
    S.Related n 1 S.nodes (Grammar.assignment inner) (Grammar.assignment inner') :=
  (Related.ident lawful).first fun _ _ targets => .pass lawful nofun nofun <|
    (inners none).weaken.bind fun _ _ values => .pure (lawful.assign targets values)

theorem unary {token : Token} (inners : S.Inners (n - 1) inner inner') (lawful : S.Lawful)
    (more : token ≠ .endOfInput) :
    S.RelatedAt token n 1 S.nodes (Grammar.unary inner) (Grammar.unary inner') :=
  .span lawful fun _ _ spans => .current lawful <| .step lawful more <|
    (inners _).weaken.bind fun _ _ operands => .pure (lawful.unary token spans operands)

theorem binary {token : Token} {left left' : Node} (inners : S.Inners (n - 1) inner inner')
    (lawful : S.Lawful) (more : token ≠ .endOfInput) (lefts : S.nodes left left') :
    S.RelatedAt token n 1 S.nodes (Grammar.binary inner left) (Grammar.binary inner' left') :=
  .current lawful <| .step lawful more <| (inners _).weaken.bind fun _ _ rights =>
    .pure (lawful.binary token lefts rights)

theorem call {callee callee' : Node} (inners : S.Inners (n - 1) inner inner')
    (lawful : S.Lawful) (callees : S.nodes callee callee') :
    S.Related n 1 S.nodes (Grammar.call inner callee) (Grammar.call inner' callee') :=
  .opening lawful nofun nofun <| (inners.expressionList lawful _).bind fun _ _ same =>
    .pure (lawful.call callees same.1)

/-- A condition, its body and the branches after it. -/
abbrev branched (S : Simulation) (result result' : Node × Body × Branches) : Prop :=
  S.nodes result.1 result'.1 ∧ S.bodies result.2.1 result'.2.1 ∧
    S.branches result.2.2 result'.2.2

theorem branchBody (inners : S.Inners n inner inner') (lawful : S.Lawful) (isBlock : Bool) :
    S.Related n 0 S.bodies (Grammar.branchBody inner isBlock)
      (Grammar.branchBody inner' isBlock) := by
  cases isBlock with
  | true => exact (inners.block lawful).map fun _ _ blocks => blocks.2
  | false => exact ((inners.statement lawful).map fun _ _ => lawful.inline).weaken

theorem branchesOver {others others' : Parser (Node × Body × Branches)}
    (inners : S.Inners n inner inner') (lawful : S.Lawful)
    (rest : S.Related (n - 1) 0 (branched S) others others') :
    S.Related n 0 (branched S) (Grammar.branchesOver inner others)
      (Grammar.branchesOver inner' others') := by
  refine ((inners none).first fun condition condition' conditions => ?_).weaken
  refine .pass lawful nofun nofun (.atBlockStart lawful fun isBlock => ?_)
  refine (inners.behind.branchBody lawful isBlock).bind fun body body' bodies => ?_
  refine .current lawful fun token => Related.relatedAt ?_
  split
  -- `end`, `elif`, `else`, or the end of a body on the same line
  · exact .step lawful (.pure ⟨conditions, bodies, lawful.noBranch⟩)
  · exact .step lawful <| rest.bind fun _ _ same =>
      .pure ⟨conditions, bodies, lawful.elif same.1 same.2.1 same.2.2⟩
  · exact .step lawful <| (inners.behind.body lawful).bind fun _ _ lasts =>
      .pure ⟨conditions, bodies, lawful.otherwise lasts⟩
  · split
    · exact .unexpected lawful _
    · exact .pure ⟨conditions, bodies, lawful.noBranch⟩

theorem branches (inners : S.Inners n inner inner') (lawful : S.Lawful) (budget : Nat) :
    S.Related n 0 (branched S) (Grammar.branches inner budget)
      (Grammar.branches inner' budget) := by
  induction budget with
  | zero => exact .expectedExpression lawful
  | succ budget ih => exact inners.branchesOver lawful (ih.shorter (Nat.sub_le _ _))

theorem conditional (inners : S.Inners (n - 1) inner inner') (lawful : S.Lawful) :
    S.Related n 1 S.nodes (Grammar.conditional inner) (Grammar.conditional inner') :=
  .opening lawful nofun nofun <| .budget fun left _ length => length ▸
    (inners.branches lawful left.length).bind fun _ _ same =>
      .pure (lawful.conditional same.1 same.2.1 same.2.2)

theorem loopStep (inners : S.Inners n inner inner') (lawful : S.Lawful) :
    S.Related n 0 (Option.Rel S.nodes) (Grammar.loopStep inner) (Grammar.loopStep inner') := by
  refine .current lawful fun token => Related.relatedAt ?_
  split
  · exact .step lawful <| (inners none).weaken.bind fun _ _ steps => .pure (.some steps)
  · exact .pure .none

theorem forLoop (inners : S.Inners (n - 1) inner inner') (lawful : S.Lawful) :
    S.Related n 1 S.nodes (Grammar.forLoop inner) (Grammar.forLoop inner') := by
  refine .opening lawful nofun nofun ((Related.ident lawful).weaken.bind fun _ _ counters => ?_)
  refine .pass lawful nofun nofun ((inners none).weaken.bind fun _ _ firsts => ?_)
  refine .pass lawful nofun nofun ((inners none).weaken.bind fun _ _ limits => ?_)
  exact (inners.loopStep lawful).bind fun _ _ steps => .pass lawful nofun nofun <|
    (inners.body lawful).bind fun _ _ bodies =>
      .pure (lawful.forLoop counters firsts limits steps bodies)

theorem whileLoop (inners : S.Inners (n - 1) inner inner') (lawful : S.Lawful) :
    S.Related n 1 S.nodes (Grammar.whileLoop inner) (Grammar.whileLoop inner') :=
  .opening lawful nofun nofun <| (inners none).weaken.bind fun _ _ conditions =>
    .pass lawful nofun nofun <| (inners.body lawful).bind fun _ _ bodies =>
      .pure (lawful.whileLoop conditions bodies)

theorem repeatLoop (inners : S.Inners (n - 1) inner inner') (lawful : S.Lawful) :
    S.Related n 1 S.nodes (Grammar.repeatLoop inner) (Grammar.repeatLoop inner') :=
  .opening lawful nofun nofun <| (inners none).weaken.bind fun _ _ counts =>
    .pass lawful nofun nofun <| .skip lawful <| (inners.body lawful).bind fun _ _ bodies =>
      .pure (lawful.repeatLoop counts bodies)

theorem functionBody (inners : S.Inners n inner inner') (lawful : S.Lawful) :
    S.Related n 0 S.bodies (Grammar.functionBody inner) (Grammar.functionBody inner') := by
  refine .current lawful fun token => Related.relatedAt ?_
  split
  · exact .step lawful <| (inners none).weaken.bind fun _ _ values =>
      .pure (lawful.inline values)
  · exact .step lawful (inners.closedBlock lawful)
  · exact inners.closedBlock lawful
  · exact .unexpected lawful _

end Inners

namespace Lawful

variable (lawful : S.Lawful)
include lawful

theorem paramsOver {others others' : Parser (List Ident)}
    (rest : S.Related (n - 1) 0 (List.Forall₂ S.idents) others others') :
    S.Related n 0 (List.Forall₂ S.idents) (Grammar.paramsOver others)
      (Grammar.paramsOver others') := by
  refine ((Related.ident lawful).first fun _ _ firsts => ?_).weaken
  refine .current lawful fun token => Related.relatedAt ?_
  split
  · exact .step lawful <| rest.bind fun _ _ idents => .pure (.cons firsts idents)
  · exact .pure (.cons firsts .nil)
  · exact .unexpected lawful _

theorem params (budget : Nat) :
    S.Related n 0 (List.Forall₂ S.idents) (Grammar.params budget) (Grammar.params budget) := by
  induction budget with
  | zero => exact (Related.ident lawful).weaken.bind fun _ _ lasts => .pure (.cons lasts .nil)
  | succ budget ih => exact lawful.paramsOver (ih.shorter (Nat.sub_le _ _))

theorem functionName :
    S.Related n 0 (Option.Rel S.idents) Grammar.functionName Grammar.functionName := by
  refine .current lawful fun token => Related.relatedAt ?_
  split
  · exact (Related.ident lawful).weaken.bind fun _ _ names => .pure (.some names)
  · exact .pure .none

theorem functionParams :
    S.Related n 0 (List.Forall₂ S.idents) Grammar.functionParams Grammar.functionParams := by
  refine .current lawful fun token => Related.relatedAt ?_
  split
  · exact .budget fun left left' length => length ▸ lawful.params left.length
  · exact .pure .nil

end Lawful

namespace Inners

theorem function (inners : S.Inners (n - 1) inner inner') (lawful : S.Lawful) :
    S.Related n 1 S.nodes (Grammar.function inner) (Grammar.function inner') := by
  refine .opening lawful nofun nofun (lawful.functionName.bind fun name name' names => ?_)
  have named : name.isSome = name'.isSome := by cases names <;> rfl
  rw [named]
  refine .demand lawful (lawful.functionParams.bind fun _ _ params => .demand lawful ?_)
  exact (inners.functionBody lawful).bind fun _ _ bodies =>
    .pure (lawful.function names params bodies)

theorem primary (inners : S.Inners (n - 1) inner inner') (lawful : S.Lawful)
    (precedence : Option Precedence) :
    S.Related n 1 S.nodes (Grammar.primary inner precedence)
      (Grammar.primary inner' precedence) := by
  intro tokens tokens' same bound
  have spans := spans_of_tokens lawful same
  rw [Grammar.primary, Grammar.primary, Parser.run_span, Parser.run_span, Parser.run_current,
    Parser.run_current, ← current_eq lawful same]
  -- The current token picks the construct, on both sides the same one.
  have construct {token : Token} (found : tokens.current = token) {x x' : Parser Node}
      (related : S.RelatedAt token n 1 S.nodes x x') :
      S.Outcomes tokens.length 1 S.nodes (x tokens) (x' tokens') :=
    related tokens tokens' same found bound
  generalize found : tokens.current = token
  cases token with
  | int | float => exact construct found (.step lawful nofun (.pure (lawful.number _ spans)))
  | string => exact construct found (.step lawful nofun (.pure (lawful.string _ spans)))
  | ident =>
    refine construct found (.peek lawful fun second => ?_)
    split
    · exact (inners.assignment lawful).relatedAt
    · exact ((Related.ident lawful).bind fun _ _ idents =>
        .pure (lawful.access idents)).relatedAt
  | leftParen =>
    refine construct found (.step lawful nofun ?_)
    exact (inners none).weaken.bind fun _ _ nodes => .pass lawful nofun nofun (.pure nodes)
  | leftBracket => exact construct found (inners.list lawful).relatedAt
  | plus | minus => exact construct found (inners.unary lawful nofun)
  | keyword word =>
    cases word with
    | notWord => exact construct found (inners.unary lawful nofun)
    | ifWord => exact construct found (inners.conditional lawful).relatedAt
    | forWord => exact construct found (inners.forLoop lawful).relatedAt
    | whileWord => exact construct found (inners.whileLoop lawful).relatedAt
    | repeatWord => exact construct found (inners.repeatLoop lawful).relatedAt
    | funWord => exact construct found (inners.function lawful).relatedAt
    | _ => exact .error same (Nat.le_refl _) (lawful.expectedExpression same)
  | _ => exact .error same (Nat.le_refl _) (lawful.expectedExpression same)

theorem continuationOver {others others' : Node → Parser Node} {left left' : Node}
    (inners : S.Inners (n - 1) inner inner') (lawful : S.Lawful) (precedence : Precedence)
    (rest : ∀ node node', S.nodes node node' →
      S.Related (n - 1) 0 S.nodes (others node) (others' node'))
    (lefts : S.nodes left left') :
    S.Related n 0 S.nodes (Grammar.continuationOver inner precedence others left)
      (Grammar.continuationOver inner' precedence others' left') := by
  refine .current lawful fun token => ?_
  split
  next tighter =>
    -- What binds is an operator or a parenthesis, so it can be passed.
    have more : token ≠ .endOfInput := by
      rintro rfl
      exact absurd tighter (by cases precedence <;> decide)
    split
    · exact ((inners.call lawful lefts).first rest).weaken.relatedAt
    · exact ((inners.binary lawful more lefts).first rest).weaken
  next => exact (Related.pure lefts).relatedAt

theorem continuation (inners : S.Inners n inner inner') (lawful : S.Lawful)
    (precedence : Precedence) (budget : Nat) {left left' : Node} (lefts : S.nodes left left') :
    S.Related n 0 S.nodes (Grammar.continuation inner precedence budget left)
      (Grammar.continuation inner' precedence budget left') := by
  induction budget generalizing left left' with
  | zero => exact .pure lefts
  | succ budget ih =>
    rw [Grammar.continuation_succ, Grammar.continuation_succ]
    exact inners.behind.continuationOver lawful precedence
      (fun _ _ nodes => (ih nodes).shorter (Nat.sub_le _ _)) lefts

theorem expressionOver (inners : S.Inners (n - 1) inner inner') (lawful : S.Lawful)
    (precedence : Option Precedence) :
    S.Related n 1 S.nodes (Grammar.expressionOver inner precedence)
      (Grammar.expressionOver inner' precedence) :=
  (inners.primary lawful precedence).first fun _ _ firsts => .budget fun left _ length =>
    length ▸ inners.continuation lawful _ left.length firsts

end Inners

/-- No expression starts behind the last token, whatever the budget. -/
theorem expressionWithin_nil (budget : Nat) (precedence : Option Precedence) :
    Grammar.expressionWithin budget precedence [] = .error ⟨.expectedExpression, ⟨0, 0⟩⟩ [] := by
  cases budget <;> rfl

namespace Lawful

variable (lawful : S.Lawful)
include lawful

/-- Budgets that no list of so many tokens exhausts give the same expressions. -/
theorem expressionWithin {budget budget' : Nat} (enough : n ≤ budget) (enough' : n ≤ budget') :
    S.Inners n (Grammar.expressionWithin budget) (Grammar.expressionWithin budget') := by
  induction n generalizing budget budget' with
  | zero =>
    intro precedence tokens tokens' same bound
    cases same with
    | nil =>
      rw [expressionWithin_nil, expressionWithin_nil]
      exact .error .nil (Nat.le_refl _) (lawful.expectedExpression .nil)
    | cons => exact absurd bound (by simp)
  -- The induction is on the number of tokens: an inner expression has fewer of them to itself.
  | succ n ih =>
    obtain ⟨budget, rfl⟩ := Nat.exists_eq_add_of_le' (Nat.one_le_of_lt enough)
    obtain ⟨budget', rfl⟩ := Nat.exists_eq_add_of_le' (Nat.one_le_of_lt enough')
    have inners := ih (Nat.le_of_succ_le_succ enough) (Nat.le_of_succ_le_succ enough')
    exact inners.expressionOver lawful

/-- A construct whose inner expressions may take up all the tokens there are. -/
theorem complete {α : Type} {post : α → α → Prop} {d : Nat} {construct : Inner → Parser α}
    (related : ∀ m inner inner', S.Inners m inner inner' →
      S.Related m d post (construct inner) (construct inner')) :
    S.Related n d post (Grammar.complete construct) (Grammar.complete construct) := by
  intro tokens tokens' same bound
  have length : tokens.length = tokens'.length := List.Forall₂.length_eq same
  have inners := lawful.expressionWithin (Nat.le_refl tokens.length) (Nat.le_of_eq length)
  exact related _ _ _ inners tokens tokens' same (Nat.le_refl _)

theorem expression : S.Inners n Grammar.expression Grammar.expression :=
  fun precedence => lawful.complete fun _ _ _ inners => inners precedence

theorem program : S.Related n 0 S.blocks Grammar.program Grammar.program := by
  have block : S.Related n 0 S.blocks (Grammar.complete Grammar.block)
      (Grammar.complete Grammar.block) := lawful.complete fun _ _ _ inners => inners.block lawful
  refine block.bind fun _ _ blocks => .current lawful fun token => Related.relatedAt ?_
  split
  · exact .pure blocks
  · exact .unexpected lawful _

end Lawful

end Simulation

end Primer
