import Primer.Proofs.Lexing.Vocabulary
import Primer.Proofs.Parsing.Turn
import Primer.Proofs.Printing.Faithful

/-!
# What the grammar makes

Every node that is parsed from the tokens of a source is grammatical. A parser yields results with a
property when each result it gives has the property and it leaves tokens of a source behind; there is
one lemma for each primitive parser and one for each construct. Inner parsers yield expressions, which
a construct puts in the places of expressions, and statements it puts in bodies only.
-/

namespace Primer

/-- All tokens left are ones that a source has. -/
def Tokens.Lexical (tokens : Tokens) : Prop :=
  ∀ lexeme ∈ tokens, lexeme.token.Lexical

namespace Tokens.Lexical

variable {tokens : Tokens} (lexical : tokens.Lexical)
include lexical

theorem current : tokens.current.Lexical := by
  cases tokens with
  | nil => trivial
  | cons lexeme rest => exact lexical lexeme List.mem_cons_self

theorem step : tokens.step.Lexical := by
  cases tokens with
  | nil => exact lexical
  | cons lexeme rest =>
    simp only [Tokens.step]
    split
    · exact lexical
    · exact fun other member => lexical other (List.mem_cons_of_mem _ member)

theorem skipNewlines : tokens.skipNewlines.Lexical := by
  obtain ⟨newlines, rest, rfl, all, stops⟩ := tokens.exists_newlines
  rw [Tokens.skipNewlines_append all stops]
  exact fun lexeme member => lexical lexeme (List.mem_append_right _ member)

end Tokens.Lexical

/-- The results of the parser have the property, if it starts at the given token. -/
def YieldsAt {α : Type} (token : Token) (post : α → Prop) (x : Parser α) : Prop :=
  ∀ tokens : Tokens, tokens.Lexical → tokens.current = token →
    ∀ a left, x tokens = .ok a left → post a ∧ left.Lexical

/-- The results of the parser have the property. -/
def Yields {α : Type} (post : α → Prop) (x : Parser α) : Prop :=
  ∀ tokens : Tokens, tokens.Lexical → ∀ a left, x tokens = .ok a left → post a ∧ left.Lexical

section Primitives

variable {α β : Type} {token : Token} {post : β → Prop} {mid : α → Prop}

theorem Yields.at {x : Parser β} (yields : Yields post x) : YieldsAt token post x :=
  fun tokens lexical _ => yields tokens lexical

theorem YieldsAt.bind {x : Parser α} {f : α → Parser β} (first : YieldsAt token mid x)
    (second : ∀ a, mid a → Yields post (f a)) : YieldsAt token post (x >>= f) := by
  intro tokens lexical here b last ran
  obtain ⟨a, left, parsed, ran⟩ := Parser.run_bind_eq_ok.mp ran
  obtain ⟨holds, lexical⟩ := first tokens lexical here a left parsed
  exact second a holds left lexical b last ran

namespace Yields

theorem pure {b : β} (holds : post b) : Yields post (pure b) := by
  rintro tokens lexical _ _ ⟨⟩
  exact ⟨holds, lexical⟩

theorem bind {x : Parser α} {f : α → Parser β} (first : Yields mid x)
    (second : ∀ a, mid a → Yields post (f a)) : Yields post (x >>= f) :=
  fun tokens lexical => YieldsAt.bind first.at second tokens lexical rfl

theorem mono {x : Parser β} {weaker : β → Prop} (yields : Yields post x)
    (imp : ∀ b, post b → weaker b) : Yields weaker x := by
  intro tokens lexical b left ran
  obtain ⟨holds, lexical⟩ := yields tokens lexical b left ran
  exact ⟨imp b holds, lexical⟩

theorem map {x : Parser α} {f : α → β} (yields : Yields (fun a => post (f a)) x) :
    Yields post (f <$> x) := by
  rw [map_eq_pure_bind]
  exact yields.bind fun _ holds => .pure holds

theorem throw (error : ParseError) : Yields post (throw error) :=
  fun _ _ _ _ ran => nomatch ran

theorem unexpected (expected : List String) : Yields post (Parser.unexpected expected) :=
  fun _ _ _ _ ran => nomatch ran

theorem current {f : Token → Parser β}
    (each : ∀ token : Token, token.Lexical → YieldsAt token post (f token)) :
    Yields post (Parser.current >>= f) :=
  fun tokens lexical => each tokens.current lexical.current tokens lexical rfl

theorem span {f : Span → Parser β} (each : ∀ span, Yields post (f span)) :
    Yields post (Parser.span >>= f) :=
  fun tokens lexical => each tokens.span tokens lexical

theorem atBlockStart {f : Bool → Parser β} (each : ∀ answer, Yields post (f answer)) :
    Yields post (Parser.atBlockStart >>= f) :=
  fun tokens lexical => each tokens.atBlockStart tokens lexical

/-- Behind a look at the tokens left, which only bounds a loop. -/
theorem budget {f : Tokens → Parser β} (each : ∀ tokens, Yields post (f tokens)) :
    Yields post (get >>= f) :=
  fun tokens lexical => each tokens tokens lexical

theorem step {f : Unit → Parser β} (behind : Yields post (f ())) :
    Yields post (Parser.step >>= f) :=
  fun tokens lexical => behind tokens.step lexical.step

theorem skipNewlines {f : Unit → Parser β} (behind : Yields post (f ())) :
    Yields post (Parser.skipNewlines >>= f) :=
  fun tokens lexical => behind tokens.skipNewlines lexical.skipNewlines

theorem expect (token : Token) : Yields (fun _ => True) (Parser.expect token) := by
  intro tokens lexical span left ran
  cases found : tokens.current.agrees token with
  | true =>
    rw [Parser.run_expect found] at ran
    cases ran
    exact ⟨trivial, lexical.step⟩
  | false =>
    rw [Parser.run_expect_error found] at ran
    cases ran

theorem pass {f : Unit → Parser β} (token : Token) (behind : Yields post (f ())) :
    Yields post (discard (Parser.expect token) >>= f) := by
  have passed : Yields (fun _ => True) (discard (Parser.expect token)) := (expect token).map
  exact passed.bind fun _ _ => behind

theorem demand {f : Unit → Parser β} (token : Token) (expected : List String)
    (behind : Yields post (f ())) : Yields post (Parser.demand token expected >>= f) := by
  have passed : Yields (fun _ => True) (Parser.demand token expected) := by
    refine .current fun found _ => Yields.at ?_
    split
    · exact fun tokens lexical _ _ ran => by cases ran; exact ⟨trivial, lexical.step⟩
    · exact .unexpected _
  exact passed.bind fun _ _ => behind

theorem skip {f : Unit → Parser β} (token : Token) (behind : Yields post (f ())) :
    Yields post (Parser.skip token >>= f) := by
  have passed : Yields (fun _ => True) (Parser.skip token) := by
    refine .current fun found _ => Yields.at ?_
    split
    · exact fun tokens lexical _ _ ran => by cases ran; exact ⟨trivial, lexical.step⟩
    · exact .pure trivial
  exact passed.bind fun _ _ => behind

theorem ident : Yields (fun ident => IsName ident.name) Parser.ident := by
  intro tokens lexical ident left ran
  by_cases found : ∃ name, tokens.current = .ident name
  · obtain ⟨name, found⟩ := found
    have proper := lexical.current
    rw [found] at proper
    rw [Parser.run_ident found] at ran
    cases ran
    exact ⟨proper, lexical.step⟩
  · rw [Parser.run_ident_error fun name here => found ⟨name, here⟩] at ran
    cases ran

end Yields

namespace YieldsAt

theorem current {f : Token → Parser β} (behind : YieldsAt token post (f token)) :
    YieldsAt token post (Parser.current >>= f) := by
  rintro tokens lexical rfl
  exact behind tokens lexical rfl

theorem span {f : Span → Parser β} (each : ∀ span, YieldsAt token post (f span)) :
    YieldsAt token post (Parser.span >>= f) :=
  fun tokens lexical here => each tokens.span tokens lexical here

theorem peek {f : Token → Parser β} (each : ∀ second, YieldsAt token post (f second)) :
    YieldsAt token post (Parser.peek >>= f) :=
  fun tokens lexical here => each tokens.peek tokens lexical here

end YieldsAt

end Primitives

namespace Node

/-- The node and all that stands in it are grammatical. -/
def Formed (node : Node) : Prop :=
  ∀ inner : Node, inner.PartOf node → inner.Grammatical

theorem Formed.intro {node : Node} (grammatical : node.Grammatical)
    (parts : ∀ part ∈ node.parts, part.Formed) : node.Formed :=
  forall_partOf_iff.mpr ⟨grammatical, parts⟩

/-- An expression the grammar makes. -/
structure FormedExpression (node : Node) : Prop where
  kind : node.isExpression = true
  formed : node.Formed

end Node

/-- The statements of the body are made by the grammar. -/
def Body.Formed (body : Body) : Prop :=
  ∀ statement ∈ body.statements, statement.Formed

namespace Branches

/-- The branches are made by the grammar. -/
structure Formed (others : Branches) : Prop where
  tests : ∀ test ∈ others.conditions, test.FormedExpression
  bodies : ∀ body ∈ others.bodies, body.Formed

theorem Formed.none : Formed .none :=
  ⟨nofun, nofun⟩

theorem Formed.nodes {others : Branches} (formed : others.Formed) :
    ∀ node ∈ others.nodes, node.Formed := by
  intro node member
  obtain member | ⟨body, inside, member⟩ := mem_nodes_iff.mp member
  · exact (formed.tests node member).formed
  · exact formed.bodies body inside node member

end Branches

namespace Grammar

open Node

/-- Parsers for inner expressions that yield expressions. -/
def Makes (inner : Inner) : Prop :=
  ∀ precedence, Yields FormedExpression (inner precedence)

namespace Makes

variable {inner : Inner} (makes : Makes inner)
include makes

theorem statement : Yields Formed (statement inner) := by
  refine .span fun here => .current fun token _ => Yields.at ?_
  split
  -- `return` with or without a value, `continue`, `break`, or an expression
  · refine .step (.current fun token _ => Yields.at ?_)
    split
    · exact .pure (.intro nofun nofun)
    · refine (makes none).bind fun value given => .pure (.intro ?_ ?_)
      · rintro _ ⟨⟩
        exact given.kind
      · exact List.forall_mem_singleton.mpr given.formed
  · exact .step (.pure (.intro trivial nofun))
  · exact .step (.pure (.intro trivial nofun))
  · exact (makes none).mono fun _ given => given.formed

theorem statements (budget : Nat) :
    Yields (fun nodes => ∀ node ∈ nodes, node.Formed) (statements inner budget) := by
  induction budget with
  | zero => exact .pure nofun
  | succ budget ih =>
    refine .current fun token _ => Yields.at ?_
    split
    · exact .pure nofun
    · refine makes.statement.bind fun first given => .current fun token _ => Yields.at ?_
      split
      · exact .skipNewlines (ih.bind fun _ others =>
          .pure (List.forall_mem_cons.mpr ⟨given, others⟩))
      · split
        · exact .pure (List.forall_mem_singleton.mpr given)
        · exact .unexpected _

theorem block : Yields (fun block => ∀ node ∈ block.statements, node.Formed) (block inner) :=
  .span fun _ => .skipNewlines <| .budget fun tokens =>
    (makes.statements tokens.length).bind fun _ each => .pure each

theorem closedBlock : Yields Body.Formed (closedBlock inner) :=
  makes.block.bind fun _ each => .pass _ (.pure each)

theorem body : Yields Body.Formed (body inner) := by
  refine .atBlockStart fun answer => ?_
  split
  · exact makes.closedBlock
  · exact makes.statement.bind fun _ given =>
      .skip _ (.pure (List.forall_mem_singleton.mpr given))

theorem expressions (closing : Token) (budget : Nat) :
    Yields (fun result => ∀ node ∈ result.1, node.FormedExpression)
      (expressions inner closing budget) := by
  induction budget with
  | zero => exact .span fun _ => .throw _
  | succ budget ih =>
    refine (makes none).bind fun first given => .current fun token _ => Yields.at ?_
    split
    · exact .step (ih.bind fun _ others => .pure (List.forall_mem_cons.mpr ⟨given, others⟩))
    · split
      · exact .span fun _ => .step (.pure (List.forall_mem_singleton.mpr given))
      · exact .unexpected _

theorem expressionList (closing : Token) :
    Yields (fun result => ∀ node ∈ result.1, node.FormedExpression)
      (expressionList inner closing) := by
  refine .current fun token _ => Yields.at ?_
  split
  · exact .span fun _ => .step (.pure nofun)
  · exact .budget fun tokens => makes.expressions closing tokens.length

theorem list : Yields FormedExpression (list inner) :=
  (Yields.expect .leftBracket).bind fun _ _ => (makes.expressionList _).bind fun _ each =>
    .pure ⟨rfl, .intro (fun element member => (each element member).kind)
      fun element member => (each element member).formed⟩

theorem assignment : Yields FormedExpression (assignment inner) :=
  Yields.ident.bind fun _ name => .pass _ <| (makes none).bind fun _ given =>
    .pure ⟨rfl, .intro ⟨name, given.kind⟩ (List.forall_mem_singleton.mpr given.formed)⟩

theorem unary {token : Token} (sign : token ∈ Token.signs) :
    YieldsAt token FormedExpression (unary inner) := by
  refine .span fun _ => .current (Yields.at (.step ?_))
  exact (makes _).bind fun _ given =>
    .pure ⟨rfl, .intro ⟨sign, given.kind⟩ (List.forall_mem_singleton.mpr given.formed)⟩

theorem binary {token : Token} {left : Node} (known : token ∈ Token.infixes)
    (first : left.FormedExpression) : YieldsAt token FormedExpression (binary inner left) := by
  refine .current (Yields.at (.step ?_))
  refine (makes _).bind fun right second =>
    .pure ⟨rfl, .intro ⟨known, first.kind, second.kind⟩ ?_⟩
  exact List.forall_mem_cons.mpr ⟨first.formed, List.forall_mem_singleton.mpr second.formed⟩

theorem call {callee : Node} (function : callee.FormedExpression) :
    Yields FormedExpression (call inner callee) := by
  refine .pass _ ((makes.expressionList _).bind fun result each => .pure ?_)
  have all : ∀ operand ∈ callee :: result.1, operand.FormedExpression :=
    List.forall_mem_cons.mpr ⟨function, each⟩
  exact ⟨rfl, .intro (fun operand member => (all operand member).kind)
    fun operand member => (all operand member).formed⟩

theorem branchBody (isBlock : Bool) : Yields Body.Formed (branchBody inner isBlock) := by
  cases isBlock with
  | true => exact makes.block.map
  | false => exact Yields.map (makes.statement.mono fun _ given =>
      List.forall_mem_singleton.mpr given)

theorem branches (budget : Nat) :
    Yields (fun result => result.1.FormedExpression ∧ result.2.1.Formed ∧ result.2.2.Formed)
      (branches inner budget) := by
  induction budget with
  | zero => exact .span fun _ => .throw _
  | succ budget ih =>
    refine (makes none).bind fun condition test => .pass _ (.atBlockStart fun isBlock => ?_)
    refine (makes.branchBody isBlock).bind fun first each => .current fun token _ => Yields.at ?_
    split
    -- `end`, `elif`, `else`, or the end of a body on the same line
    · exact .step (.pure ⟨test, each, .none⟩)
    · refine .step (ih.bind fun result others => .pure ⟨test, each, ?_⟩)
      exact ⟨List.forall_mem_cons.mpr ⟨others.1, others.2.2.tests⟩,
        List.forall_mem_cons.mpr ⟨others.2.1, others.2.2.bodies⟩⟩
    · refine .step (makes.body.bind fun last lasts => .pure ⟨test, each, ?_⟩)
      exact ⟨nofun, List.forall_mem_singleton.mpr lasts⟩
    · split
      · exact .unexpected _
      · exact .pure ⟨test, each, .none⟩

theorem conditional : Yields FormedExpression (conditional inner) := by
  refine .pass _ (.budget fun tokens => (makes.branches tokens.length).bind ?_)
  rintro ⟨condition, body, others⟩ ⟨test, each, rest⟩
  refine .pure ⟨rfl, .intro ?_ ?_⟩
  · exact List.forall_mem_cons.mpr ⟨test.kind, fun other member => (rest.tests other member).kind⟩
  · exact List.forall_mem_append.mpr ⟨List.forall_mem_cons.mpr ⟨test.formed, each⟩, rest.nodes⟩

theorem loopStep : Yields (fun step => ∀ node ∈ step.toList, node.FormedExpression)
    (loopStep inner) := by
  refine .current fun token _ => Yields.at ?_
  split
  · exact .step ((makes none).bind fun _ given => .pure (List.forall_mem_singleton.mpr given))
  · exact .pure nofun

theorem forLoop : Yields FormedExpression (forLoop inner) := by
  refine .pass _ (Yields.ident.bind fun counter name => .pass _ ?_)
  refine (makes none).bind fun first start => .pass _ ((makes none).bind fun limit stop => ?_)
  refine makes.loopStep.bind fun step stride => .pass _ (makes.body.bind fun body each => .pure ?_)
  have headers : ∀ header ∈ first :: limit :: step.toList, header.FormedExpression :=
    List.forall_mem_cons.mpr ⟨start, List.forall_mem_cons.mpr ⟨stop, stride⟩⟩
  exact ⟨rfl, .intro ⟨name, fun header member => (headers header member).kind⟩
    (List.forall_mem_append.mpr ⟨fun header member => (headers header member).formed, each⟩)⟩

theorem whileLoop : Yields FormedExpression (whileLoop inner) :=
  .pass _ <| (makes none).bind fun _ test => .pass _ <| makes.body.bind fun _ each =>
    .pure ⟨rfl, .intro test.kind (List.forall_mem_cons.mpr ⟨test.formed, each⟩)⟩

theorem repeatLoop : Yields FormedExpression (repeatLoop inner) :=
  .pass _ <| (makes none).bind fun _ times => .pass _ <| .skip _ <| makes.body.bind fun _ each =>
    .pure ⟨rfl, .intro times.kind (List.forall_mem_cons.mpr ⟨times.formed, each⟩)⟩

/-- An expression behind an arrow, or a block. -/
theorem functionBody :
    Yields (fun body => body.Formed ∧ ∀ value, body = .inline value → value.isExpression = true)
      (functionBody inner) := by
  have block : Yields (fun body => body.Formed ∧
      ∀ value, body = .inline value → value.isExpression = true) (Grammar.closedBlock inner) :=
    makes.block.bind fun _ each => .pass _ (.pure ⟨each, nofun⟩)
  refine .current fun token _ => Yields.at ?_
  split
  · refine .step ((makes none).bind fun value given =>
      .pure ⟨List.forall_mem_singleton.mpr given.formed, ?_⟩)
    rintro _ ⟨⟩
    exact given.kind
  · exact .step block
  · exact block
  · exact .unexpected _

end Makes

theorem yields_params (budget : Nat) :
    Yields (fun idents => ∀ ident ∈ idents, IsName ident.name) (params budget) := by
  induction budget with
  | zero => exact Yields.ident.bind fun _ name => .pure (List.forall_mem_singleton.mpr name)
  | succ budget ih =>
    refine Yields.ident.bind fun _ name => .current fun token _ => Yields.at ?_
    split
    · exact .step (ih.bind fun _ names => .pure (List.forall_mem_cons.mpr ⟨name, names⟩))
    · exact .pure (List.forall_mem_singleton.mpr name)
    · exact .unexpected _

theorem yields_functionParams :
    Yields (fun idents => ∀ ident ∈ idents, IsName ident.name) functionParams := by
  refine .current fun token _ => Yields.at ?_
  split
  · exact .budget fun tokens => yields_params tokens.length
  · exact .pure nofun

theorem yields_functionName :
    Yields (fun name => ∀ ident ∈ name.toList, IsName ident.name) functionName := by
  refine .current fun token _ => Yields.at ?_
  split
  · exact Yields.ident.bind fun _ name => .pure (List.forall_mem_singleton.mpr name)
  · exact .pure nofun

/-- An operator that binds at all, and is no call, stands between two operands. -/
theorem mem_infixes_of_looser {precedence : Precedence} {token : Token}
    (binds : precedence.looser token.precedence = true) (noCall : token ≠ .leftParen) :
    token ∈ Token.infixes := by
  have bound : token.precedence ≠ .lowest := by
    intro lowest
    rw [lowest] at binds
    simp [Precedence.looser, Precedence.rank] at binds
  cases token with
  | keyword word => cases word <;> first | decide | exact absurd rfl bound
  | leftParen => exact absurd rfl noCall
  | plus | minus | times | divide | power | equal | notEqual | less | lessEqual | greater
    | greaterEqual => decide
  | _ => exact absurd rfl bound

namespace Makes

variable {inner : Inner} (makes : Makes inner)
include makes

theorem function : Yields FormedExpression (function inner) := by
  refine .pass _ (yields_functionName.bind fun name named => .demand _ _ ?_)
  refine yields_functionParams.bind fun params names => .demand _ _ ?_
  exact makes.functionBody.bind fun body given =>
    .pure ⟨rfl, .intro ⟨List.forall_mem_append.mpr ⟨named, names⟩, given.2⟩ given.1⟩

theorem primary (precedence : Option Precedence) :
    Yields FormedExpression (primary inner precedence) := by
  refine .span fun here => .current fun token lexical => ?_
  -- The current token picks the construct.
  cases token with
  | int value => exact Yields.at (.step (.pure ⟨rfl, .intro lexical nofun⟩))
  | float | string => exact Yields.at (.step (.pure ⟨rfl, .intro trivial nofun⟩))
  | ident =>
    refine .peek fun second => Yields.at ?_
    split
    · exact makes.assignment
    · exact Yields.ident.bind fun _ name => .pure ⟨rfl, .intro name nofun⟩
  | leftParen =>
    exact Yields.at (.step ((makes none).bind fun _ given => .pass _ (.pure given)))
  | leftBracket => exact makes.list.at
  | plus | minus => exact makes.unary (by decide)
  | keyword word =>
    cases word with
    | notWord => exact makes.unary (by decide)
    | ifWord => exact makes.conditional.at
    | forWord => exact makes.forLoop.at
    | whileWord => exact makes.whileLoop.at
    | repeatWord => exact makes.repeatLoop.at
    | funWord => exact makes.function.at
    | _ => exact (Yields.throw _).at
  | _ => exact (Yields.throw _).at

theorem continuation (precedence : Precedence) (budget : Nat) {left : Node}
    (first : left.FormedExpression) :
    Yields FormedExpression (continuation inner precedence budget left) := by
  induction budget generalizing left with
  | zero => exact .pure first
  | succ budget ih =>
    rw [continuation_succ]
    refine .current fun token _ => ?_
    split
    next binds =>
      -- Whichever way the expression goes on, what it makes is the left operand of the next round.
      have operand : YieldsAt token FormedExpression
          (if token = .leftParen then Grammar.call inner left else Grammar.binary inner left) := by
        split
        next => exact (makes.call first).at
        next noCall => exact makes.binary (mem_infixes_of_looser binds noCall) first
      exact operand.bind fun _ given => ih given
    next => exact Yields.at (.pure first)

theorem expressionOver (precedence : Option Precedence) :
    Yields FormedExpression (expressionOver inner precedence) :=
  (makes.primary precedence).bind fun _ first => .budget fun tokens =>
    makes.continuation _ tokens.length first

end Makes

/-- By induction on the budget: what is parsed as an expression is one. -/
theorem makes_within (budget : Nat) : Makes (expressionWithin budget) := by
  induction budget with
  | zero => exact fun _ => .span fun _ => .throw _
  | succ budget ih => exact fun precedence => ih.expressionOver precedence

theorem yields_program :
    Yields (fun block => ∀ node ∈ block.statements, node.Formed) program := by
  have block : Yields (fun block => ∀ node ∈ block.statements, node.Formed)
      (complete Grammar.block) := .budget fun tokens => (makes_within tokens.length).block
  refine block.bind fun block each => .current fun token _ => Yields.at ?_
  split
  · exact .pure each
  · exact .unexpected _

end Grammar

/-- Every node of a program that is parsed from a source is grammatical. -/
theorem formed_of_parse {source : String} {program : Block} (parsed : parse source = .ok program) :
    ∀ statement ∈ program.statements, statement.Formed := by
  obtain ⟨tokens, lexed, parsed⟩ := parse_eq_ok_iff.mp parsed
  obtain ⟨left, ran⟩ := parseTokens_eq_ok_iff.mp parsed
  exact (Grammar.yields_program tokens (lexical_of_lex lexed) program left ran).1

end Primer
