import Primer.Proofs.Parsing.InStep
import Primer.Proofs.Program.Bare

/-!
# Parsing is blind to spans

Token lists that differ in their spans only are parsed alike: to programs that differ in their spans
only, or to errors that do.
-/

namespace Primer

/-- Lists agree up to a function when their members do. -/
theorem forall₂_iff_map_eq {α β : Type} {f : α → β} {xs ys : List α} :
    List.Forall₂ (fun x y => f x = f y) xs ys ↔ xs.map f = ys.map f :=
  calc List.Forall₂ (fun x y => f x = f y) xs ys
    _ ↔ List.Forall₂ (· = ·) (xs.map f) (ys.map f) := by
      rw [List.forall₂_map_left_iff, List.forall₂_map_right_iff]
    _ ↔ xs.map f = ys.map f := by rw [List.forall₂_eq_eq_eq]

namespace Simulation

/-- Parsers beside each other on token lists that agree but for their spans. -/
def spanBlind : Simulation where
  lexemes lexeme lexeme' := lexeme.token = lexeme'.token
  errors error error' _ _ := error.fault = error'.fault
  spans _ _ := True
  idents ident ident' := ident.bare = ident'.bare
  nodes node node' := node.bare = node'.bare
  bodies body body' := body.bare = body'.bare
  branches others others' := others.bare = others'.bare

theorem bareAll_eq_of_forall₂ {nodes nodes' : List Node}
    (same : List.Forall₂ spanBlind.nodes nodes nodes') :
    Node.bareAll nodes = Node.bareAll nodes' := by
  rw [Node.bareAll_eq_map, Node.bareAll_eq_map]
  exact forall₂_iff_map_eq.mp same

private theorem bareOption_eq {node node' : Option Node}
    (same : Option.Rel spanBlind.nodes node node') :
    Node.bareOption node = Node.bareOption node' := by
  cases same with
  | none => rfl
  | some nodes => exact congrArg some nodes

private theorem current_eq_of_tokens {left left' : Tokens} (same : spanBlind.tokens left left') :
    left.current = left'.current := by
  cases same with
  | nil => rfl
  | cons first _ => exact first

theorem spanBlind_lawful : spanBlind.Lawful where
  token same := same
  span _ := trivial
  noSpan := trivial
  unexpected expected same := by
    show ParseFault.unexpected _ _ = ParseFault.unexpected _ _
    rw [current_eq_of_tokens same]
  expectedIdent _ := rfl
  expectedExpression _ := rfl
  ident _ _ := rfl
  number _ _ := rfl
  string _ _ := rfl
  list _ _ elements := congrArg (Node.list · nowhere) (bareAll_eq_of_forall₂ elements)
  access idents := congrArg Node.variable idents
  assign targets values := congrArg₂ (Node.assign · · nowhere) targets values
  binary operator lefts rights := congrArg₂ (Node.binary · operator · nowhere) lefts rights
  unary operator _ operands := congrArg (Node.unary operator · nowhere) operands
  conditional conditions bodies others := by
    simp only [spanBlind, Node.bare] at conditions bodies others ⊢
    rw [conditions, bodies, others]
  forLoop counters firsts limits steps bodies := by
    have same := bareOption_eq steps
    simp only [spanBlind, Node.bare] at counters firsts limits bodies ⊢
    rw [counters, firsts, limits, same, bodies]
  whileLoop conditions bodies := congrArg₂ (Node.whileLoop · · nowhere) conditions bodies
  repeatLoop counts bodies := congrArg₂ (Node.repeatLoop · · nowhere) counts bodies
  function := by
    intro name name' params params' body body' names idents bodies
    have sameName : name.map Ident.bare = name'.map Ident.bare := by
      cases names with
      | none => rfl
      | some same => exact congrArg some same
    have sameParams : params.map Ident.bare = params'.map Ident.bare := by
      induction idents with
      | nil => rfl
      | cons first _ ih => exact congrArg₂ List.cons first ih
    simp only [spanBlind, Node.bare] at bodies ⊢
    rw [sameName, sameParams, bodies]
  call callees arguments :=
    congrArg₂ (Node.call · · nowhere) callees (bareAll_eq_of_forall₂ arguments)
  returnNothing _ := rfl
  returnValue _ values := congrArg (fun value => Node.returning (some value) nowhere) values
  continuing _ := rfl
  breaking _ := rfl
  inline statements := congrArg Body.inline statements
  block _ statements := congrArg (Body.block · nowhere) (bareAll_eq_of_forall₂ statements)
  noBranch := rfl
  otherwise bodies := congrArg Branches.otherwise bodies
  elif conditions bodies others := by
    simp only [spanBlind, Branches.bare] at conditions bodies others ⊢
    rw [conditions, bodies, others]

end Simulation

private theorem bare_eq_of_blocks {program program' : Block}
    (blocks : Simulation.spanBlind.blocks program program') : program.bare = program'.bare := by
  rw [Block.bare, Block.bare, ← Node.bareAll_eq_map, ← Node.bareAll_eq_map,
    Simulation.bareAll_eq_of_forall₂ blocks.1]

/-- Tokens that agree but for their spans with those of a program make up the same program, but for
its spans. -/
theorem parseTokens_of_same_tokens {tokens tokens' left : Tokens} {program : Block}
    (same : tokens.map Lexeme.token = tokens'.map Lexeme.token)
    (parsed : Grammar.program tokens' = .ok program left) :
    ∃ program', parseTokens tokens = .ok program' ∧ program'.bare = program.bare := by
  -- The one run succeeds, and a run in step with it cannot fail.
  have outcomes := Simulation.spanBlind_lawful.program tokens tokens' (forall₂_iff_map_eq.mpr same)
    (Nat.le_refl _)
  rw [parsed] at outcomes
  generalize ran : Grammar.program tokens = result at outcomes
  cases outcomes with
  | @ok program' _ _ _ _ _ blocks =>
    refine ⟨program', ?_, bare_eq_of_blocks blocks⟩
    rw [parseTokens, EStateM.run, ran]

def ParseError.bare (error : ParseError) : ParseError :=
  ⟨error.fault, nowhere⟩

/-- What parsing comes to, without spans. -/
def bareParse : Except ParseError Block → Except ParseError Block
  | .ok program => .ok program.bare
  | .error error => .error error.bare

/-- Tokens that agree but for their spans are parsed alike, also when they are no program. -/
theorem bareParse_parseTokens {tokens tokens' : Tokens}
    (same : tokens.map Lexeme.token = tokens'.map Lexeme.token) :
    bareParse (parseTokens tokens) = bareParse (parseTokens tokens') := by
  have outcomes := Simulation.spanBlind_lawful.program tokens tokens' (forall₂_iff_map_eq.mpr same)
    (Nat.le_refl _)
  simp only [parseTokens, EStateM.run]
  generalize Grammar.program tokens = result at outcomes ⊢
  generalize Grammar.program tokens' = result' at outcomes ⊢
  cases outcomes with
  | ok _ _ blocks => exact congrArg Except.ok (bare_eq_of_blocks blocks)
  | @error error error' _ _ _ _ errors =>
    have bare : error.bare = error'.bare := congrArg (ParseError.mk · nowhere) errors
    exact congrArg Except.error bare

end Primer
