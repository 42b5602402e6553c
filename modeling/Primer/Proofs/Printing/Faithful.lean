import Primer.Proofs.Printing.Printable
import Primer.Token.Precedence

/-!
# Programs that their text stands for

The text of a program has parentheses around operators and nowhere else. A part of a node is read back
if it ends where the node goes on, and the text alone must show that. Three things can hide the end of
a part: an operator or an argument list behind it is taken into its last expression, a closing token
behind a `return` is taken for the start of the value, and an `else` is taken by the conditional
nearest to it. A node is faithful when none of this happens to its parts, when its branches are laid
out alike, and when its literal is one that the language can write.

What the grammar makes in any case is left to `Node.Grammatical`.
-/

namespace Primer

/-- The statement on the same line that a body consists of. -/
def Body.inline? : Body → Option Node
  | .inline statement => some statement
  | .block _ _ => none

/-- The conditional ends in an `else`. -/
def Branches.hasElse : Branches → Bool
  | .none => false
  | .otherwise _ => true
  | .elif _ _ others => others.hasElse

namespace Node

/-- All nodes but those that are statements only. -/
def isExpression : Node → Bool
  | .returning _ _ | .continuing _ | .breaking _ => false
  | _ => true

def isAssignment : Node → Bool
  | .assign _ _ _ => true
  | _ => false

/-- `continue` and `break`, which nothing behind them goes on with. -/
def isJump : Node → Bool
  | .continuing _ | .breaking _ => true
  | _ => false

theorem isJump_of_isExpression {node : Node} (expression : node.isExpression = true) :
    node.isJump = false := by
  cases node <;> first | rfl | cases expression

/-- The part of a node that its text ends with. -/
def tail? : Node → Option Node
  | .assign _ value _ => some value
  | .conditional _ body others _ => (others.lastBody body).inline?
  | .forLoop _ _ _ _ body _ | .whileLoop _ body _ | .repeatLoop _ body _ | .function _ _ body _ =>
    body.inline?
  | .returning value _ => value
  | _ => none

/-- An operator behind the node goes on with its last part, not with the node. -/
def isOpen (node : Node) : Bool :=
  node.tail?.any fun last => !last.isJump

/-- A conditional on one line, which takes the next `elif` or `else` there is. -/
def awaitsElse : Node → Bool
  | .conditional _ body others _ => !others.hasElse && (others.lastBody body).inline?.isSome
  | _ => false

/-- The text of `outer` ends with that of `inner`. -/
def Ends (inner outer : Node) : Prop :=
  Relation.ReflTransGen (fun last whole => whole.tail? = some last) inner outer

/-- What the text of a node ends with is the node itself, if a token of its own ends it. -/
theorem Ends.eq_of_tail {inner outer : Node} (ends : Ends inner outer) (tail : outer.tail? = none) :
    inner = outer := by
  obtain rfl | ⟨last, -, some⟩ := ends.cases_tail
  · rfl
  · simp [tail] at some

/-- The text ends with a `return` that has no value. -/
def EndsInReturn (node : Node) : Prop :=
  ∃ span, Ends (.returning none span) node

/-- The text ends with a conditional that takes an `else` behind it. -/
def Dangles (node : Node) : Prop :=
  ∃ inner, Ends inner node ∧ inner.awaitsElse = true

end Node

/-- The branches before an `else` are all blocks or all on one line, where `body` is the one before
these, and those on one line leave an `else` to this conditional. -/
def Branches.Aligned (body : Body) : Branches → Prop
  | .none => True
  | .otherwise _ => ∀ statement ∈ body.inline?, ¬statement.Dangles
  | .elif _ next others => next.isBlock = body.isBlock ∧
      (∀ statement ∈ body.inline?, ¬statement.Dangles) ∧ others.Aligned next

namespace Node

/-- The parts of the node end where its text goes on, and its literal is one that is read back. -/
def Faithful : Node → Prop
  | .number (.float value) _ => Decimal.HasLiteral value
  | .string value _ => ∀ c ∈ value.toList, isLegible c = true
  | .list elements _ => ∀ element ∈ elements, ¬element.EndsInReturn
  | .binary left _ right _ =>
    left.isOpen = false ∧ right.isAssignment = false ∧ ¬right.EndsInReturn
  | .unary _ operand _ => operand.isAssignment = false ∧ ¬operand.EndsInReturn
  | .call callee arguments _ => callee.isOpen = false ∧ ∀ argument ∈ arguments, ¬argument.EndsInReturn
  | .conditional condition body others _ =>
    (∀ test ∈ condition :: others.conditions, ¬test.EndsInReturn) ∧ others.Aligned body
  | .forLoop _ first limit step _ _ => ∀ header ∈ first :: limit :: step.toList, ¬header.EndsInReturn
  | .whileLoop condition _ _ => ¬condition.EndsInReturn
  | .repeatLoop count _ _ => ¬count.EndsInReturn
  | _ => True

/-- The names are names of the language, the operators are operators, and what stands in the place of
an expression is one. -/
def Grammatical : Node → Prop
  | .number (.int value) _ => 0 ≤ value.toInt
  | .list elements _ => ∀ element ∈ elements, element.isExpression = true
  | .variable ident => IsName ident.name
  | .assign target value _ => IsName target.name ∧ value.isExpression = true
  | .binary left operator right _ =>
    operator ∈ Token.infixes ∧ left.isExpression = true ∧ right.isExpression = true
  | .unary operator operand _ => operator ∈ Token.signs ∧ operand.isExpression = true
  | .call callee arguments _ => ∀ operand ∈ callee :: arguments, operand.isExpression = true
  | .conditional condition _ others _ =>
    ∀ test ∈ condition :: others.conditions, test.isExpression = true
  | .forLoop counter first limit step _ _ => IsName counter.name ∧
      ∀ header ∈ first :: limit :: step.toList, header.isExpression = true
  | .whileLoop condition _ _ => condition.isExpression = true
  | .repeatLoop count _ _ => count.isExpression = true
  | .function name params body _ => (∀ ident ∈ name.toList ++ params, IsName ident.name) ∧
      ∀ value, body = .inline value → value.isExpression = true
  | .returning value _ => ∀ inner ∈ value, inner.isExpression = true
  | _ => True

/-- An assignment ends with its value, so it is open. -/
theorem Grammatical.noAssignment {node : Node} (grammatical : node.Grammatical)
    (closed : node.isOpen = false) : node.isAssignment = false := by
  cases node with
  | assign target value span =>
    simp [isOpen, tail?, isJump_of_isExpression grammatical.2] at closed
  | _ => rfl

/-- The node and all that stands in it are made by the grammar and shown by their text. -/
def Readable (node : Node) : Prop :=
  ∀ inner : Node, inner.PartOf node → inner.Grammatical ∧ inner.Faithful

namespace Readable

variable {node : Node}

theorem intro (grammatical : node.Grammatical) (faithful : node.Faithful)
    (parts : ∀ part ∈ node.parts, part.Readable) : node.Readable :=
  forall_partOf_iff.mpr ⟨⟨grammatical, faithful⟩, parts⟩

theorem grammatical (readable : node.Readable) : node.Grammatical :=
  (readable node .refl).1

theorem faithful (readable : node.Readable) : node.Faithful :=
  (readable node .refl).2

theorem part {part : Node} (readable : node.Readable) (member : part ∈ node.parts) : part.Readable :=
  (forall_partOf_iff.mp readable).2 part member

end Readable

end Node

/-- The tokens that stand behind a part in the midst of a node, operators apart. -/
def Token.closings : List Token :=
  [.comma, .rightParen, .rightBracket, .keyword .thenWord, .keyword .toWord, .keyword .stepWord,
    .keyword .timesWord]

section Ending

variable {node : Node} {next : Token}

/-- The token behind the node shows that the node ends there, if the text ends with it. -/
structure Node.StopsBefore (node : Node) (next : Token) : Prop where
  operator : node.isOpen = true → next.precedence = .lowest
  value : ∀ span, node = .returning none span → next = .newline ∨ next.isBlockEnd = true
  branch : node.awaitsElse = true → next ≠ .keyword .elifWord ∧ next ≠ .keyword .elseWord

/-- The token behind the text of a node shows that the node ends there. -/
structure Node.EndsBefore (node : Node) (next : Token) : Prop where
  noAssign : next ≠ .assign
  noEnd : next ≠ .keyword .endWord
  stops : ∀ inner : Node, inner.Ends node → inner.StopsBefore next

namespace Node.EndsBefore

/-- What ends a node ends its last part, and no operator goes on with that. -/
theorem last {last : Node} (ends : node.EndsBefore next) (tail : node.tail? = some last) :
    last.EndsBefore next ∧ (last.isJump = true ∨ next.precedence = .lowest) := by
  refine ⟨⟨ends.noAssign, ends.noEnd, fun inner inside => ends.stops inner (inside.tail tail)⟩, ?_⟩
  by_cases jump : last.isJump = true
  · exact .inl jump
  · exact .inr ((ends.stops node .refl).operator (by simp [isOpen, tail, jump]))

/-- No operator goes on with an expression that a node ends with. -/
theorem lowest {last : Node} (ends : node.EndsBefore next) (tail : node.tail? = some last)
    (expression : last.isExpression = true) : next.precedence = .lowest :=
  (ends.last tail).2.resolve_left (by simp [isJump_of_isExpression expression])

/-- A token that is no operator ends a node unless it could be a value to return or a branch. -/
theorem of_lowest (lowest : next.precedence = .lowest) (noAssign : next ≠ .assign)
    (noEnd : next ≠ .keyword .endWord)
    (value : node.EndsInReturn → next = .newline ∨ next.isBlockEnd = true)
    (branch : node.Dangles → next ≠ .keyword .elifWord ∧ next ≠ .keyword .elseWord) :
    node.EndsBefore next := by
  refine ⟨noAssign, noEnd, fun inner inside => ⟨fun _ => lowest, ?_, ?_⟩⟩
  · rintro span rfl
    exact value ⟨span, inside⟩
  · intro awaits
    exact branch ⟨inner, inside, awaits⟩

/-- Every node ends before a new line and at the end of the input. -/
theorem line (ends : next = .newline ∨ next = .endOfInput) : node.EndsBefore next := by
  rcases ends with rfl | rfl <;> exact of_lowest rfl nofun nofun (by simp [Token.isBlockEnd]) (by simp)

/-- A part in the midst of a node ends before what closes it. -/
theorem closing (whole : ¬node.EndsInReturn) (closes : next ∈ Token.closings) :
    node.EndsBefore next := by
  simp only [Token.closings, List.mem_cons, List.not_mem_nil, or_false] at closes
  rcases closes with rfl | rfl | rfl | rfl | rfl | rfl | rfl
  all_goals exact of_lowest rfl nofun nofun (fun returns => absurd returns whole) (by simp)

/-- A branch on one line ends before the next. -/
theorem branch (whole : ¬node.Dangles)
    (branches : next = .keyword .elifWord ∨ next = .keyword .elseWord) : node.EndsBefore next := by
  rcases branches with rfl | rfl
  all_goals exact of_lowest rfl nofun nofun (fun _ => .inr rfl) (fun dangles => absurd dangles whole)

/-- An expression that is not open ends before an operator. -/
theorem operator (expression : node.isExpression = true) (closed : node.isOpen = false)
    (noAssign : next ≠ .assign)
    (other : next ∉ [.keyword .endWord, .keyword .elifWord, .keyword .elseWord]) :
    node.EndsBefore next := by
  simp only [List.mem_cons, List.not_mem_nil, or_false, not_or] at other
  -- Only a `continue` or a `break` can end the text of a node that is not open.
  have jump (inner : Node) (inside : inner.Ends node) :
      inner = node ∨ inner.isJump = true := by
    obtain rfl | ⟨last, inside, tail⟩ := inside.cases_tail
    · exact .inl rfl
    · have jump : last.isJump = true := by simpa [isOpen, tail] using closed
      have none : last.tail? = none := by cases last <;> first | rfl | simp [isJump] at jump
      exact .inr (Ends.eq_of_tail inside none ▸ jump)
  refine ⟨noAssign, other.1, fun inner inside => ⟨?_, ?_, fun _ => other.2⟩⟩
  -- The node itself is neither open nor a `return`, and a jump has no part that could be.
  · intro opens
    obtain rfl | jumps := jump inner inside
    · simp [closed] at opens
    · cases inner <;> simp [isJump, isOpen, tail?] at jumps opens
  · rintro span rfl
    obtain rfl | jumps := jump _ inside
    · simp [isExpression] at expression
    · simp [isJump] at jumps

end Node.EndsBefore

end Ending

/-- The nodes of branches are their conditions and the statements of their bodies. -/
theorem Branches.mem_nodes_iff {others : Branches} {node : Node} : node ∈ others.nodes ↔
    node ∈ others.conditions ∨ ∃ body ∈ others.bodies, node ∈ body.statements := by
  cases others with
  | none => simp [nodes, conditions, bodies]
  | otherwise body => simp [nodes, conditions, bodies]
  | elif condition body others =>
    have rest : node ∈ others.nodes ↔
        node ∈ others.conditions ∨ ∃ body ∈ others.bodies, node ∈ body.statements :=
      mem_nodes_iff
    simp only [nodes, conditions, bodies, List.cons_append, List.mem_cons, List.mem_append, rest]
    grind

section Printable

open Node

/-- An expression that can stand anywhere in another. -/
structure Node.Closed (node : Node) : Prop where
  expression : node.isExpression = true
  noAssignment : node.isAssignment = false
  notOpen : node.isOpen = false
  whole : ¬node.EndsInReturn

/-- An expression that ends with a token of its own. -/
theorem Node.closed_of_tail {node : Node} (expression : node.isExpression = true)
    (ends : node.tail? = none) : node.Closed := by
  refine ⟨expression, ?_, by simp [isOpen, ends], ?_⟩
  · cases node <;> first | rfl | simp [tail?] at ends
  · rintro ⟨span, inside⟩
    obtain rfl := inside.eq_of_tail ends
    simp [isExpression] at expression

theorem Node.PrintableExpression.closed {node : Node} (printable : node.PrintableExpression) :
    node.Closed := by
  cases printable <;> exact closed_of_tail rfl rfl

theorem Node.PrintableExpression.readable {node : Node} (printable : node.PrintableExpression) :
    node.Readable := by
  induction printable with
  | number positive => exact .intro positive trivial nofun
  | string plain =>
    exact .intro trivial (fun c member => isLegible_of_isPlain (plain c member)) nofun
  | access name => exact .intro name trivial nofun
  | list each ih =>
    exact .intro (fun element member => (each element member).closed.expression)
      (fun element member => (each element member).closed.whole) ih
  | call function each function_ih each_ih =>
    refine .intro (List.forall_mem_cons.mpr ⟨function.closed.expression, ?_⟩)
      ⟨function.closed.notOpen, ?_⟩ (List.forall_mem_cons.mpr ⟨function_ih, each_ih⟩)
    · exact fun argument member => (each argument member).closed.expression
    · exact fun argument member => (each argument member).closed.whole
  | unary sign child ih =>
    exact .intro ⟨sign, child.closed.expression⟩ ⟨child.closed.noAssignment, child.closed.whole⟩
      (List.forall_mem_singleton.mpr ih)
  | binary known first second first_ih second_ih =>
    exact .intro ⟨known, first.closed.expression, second.closed.expression⟩
      ⟨first.closed.notOpen, second.closed.noAssignment, second.closed.whole⟩
      (List.forall_mem_cons.mpr ⟨first_ih, List.forall_mem_singleton.mpr second_ih⟩)

/-- Branches that are blocks are laid out alike. -/
theorem Branches.aligned_of_blocks {body : Body} {others : Branches}
    (first : body.isBlock = true) (blocks : ∀ body ∈ others.bodies, body.isBlock = true) :
    others.Aligned body := by
  have noInline : body.inline? = Option.none := by cases body <;> trivial
  cases others with
  | none => trivial
  | otherwise last => simp [Aligned, noInline]
  | elif condition next others =>
    have rest := List.forall_mem_cons.mp blocks
    simp [Aligned, noInline, first, rest.1, aligned_of_blocks rest.1 rest.2]

theorem Node.PrintableStatement.readable {node : Node} (printable : node.PrintableStatement) :
    node.Readable := by
  induction printable with
  | expression printable => exact printable.readable
  | assign name printable =>
    exact .intro ⟨name, printable.closed.expression⟩ trivial
      (List.forall_mem_singleton.mpr printable.readable)
  | returnNothing => exact .intro nofun trivial nofun
  | returnValue printable =>
    refine .intro ?_ trivial (List.forall_mem_singleton.mpr printable.readable)
    rintro _ ⟨⟩
    exact printable.closed.expression
  | continuing | breaking => exact .intro trivial trivial nofun
  | @forLoop counter first limit step _ _ _ name start stop stride each ih =>
    have headers : ∀ header ∈ first :: limit :: step.toList, header.PrintableExpression := by
      simpa using ⟨start, stop, stride⟩
    refine .intro ⟨name, fun header member => (headers header member).closed.expression⟩
      (fun header member => (headers header member).closed.whole)
      (List.forall_mem_append.mpr ⟨fun header member => (headers header member).readable, ih⟩)
  | whileLoop test each ih =>
    exact .intro test.closed.expression test.closed.whole
      (List.forall_mem_cons.mpr ⟨test.readable, ih⟩)
  | repeatLoop times each ih =>
    exact .intro times.closed.expression times.closed.whole
      (List.forall_mem_cons.mpr ⟨times.readable, ih⟩)
  | @conditional condition statements others _ _ test each tests blocks bodies ih bodies_ih =>
    have all : ∀ test ∈ condition :: others.conditions, test.PrintableExpression :=
      List.forall_mem_cons.mpr ⟨test, tests⟩
    refine .intro (fun test member => (all test member).closed.expression)
      ⟨fun test member => (all test member).closed.whole, Branches.aligned_of_blocks rfl blocks⟩
      (List.forall_mem_append.mpr ⟨List.forall_mem_cons.mpr ⟨test.readable, ih⟩, ?_⟩)
    intro part member
    obtain member | ⟨body, inside, member⟩ := Branches.mem_nodes_iff.mp member
    · exact (tests part member).readable
    · exact bodies_ih body inside part member
  | functionBlock names idents each ih =>
    refine .intro ⟨List.forall_mem_append.mpr ⟨?_, idents⟩, nofun⟩ trivial ih
    simpa using names
  | functionValue names idents printable =>
    refine .intro ⟨List.forall_mem_append.mpr ⟨?_, idents⟩, ?_⟩ trivial
      (List.forall_mem_singleton.mpr printable.readable)
    · simpa using names
    · rintro _ ⟨⟩
      exact printable.closed.expression

end Printable

end Primer
