import Primer.Proofs.Parsing.Reading

/-!
# Nothing is lost in parsing

Some tokens only give a program its shape: brackets, commas, newlines, the words around conditions
and bodies. The others are its content, and the syntax tree keeps them all. Walking through the tree
in the order of the source reads the content off again, each token once and in its place; names and
literals have kept their spans.

The tree is compared with the way it is written, one form at a time; that the parser reads what is
written so is known already.
-/

namespace Primer

/-- Names, literals, operators and the words for jumps. -/
def Token.isContent : Token → Bool
  | .ident _ | .int _ | .float _ | .string _ => true
  | .plus | .minus | .times | .divide | .power => true
  | .equal | .notEqual | .less | .lessEqual | .greater | .greaterEqual => true
  | .keyword word => word ∈ [.isWord, .andWord, .orWord, .notWord, .returnWord, .continueWord,
      .breakWord]
  | .assign | .leftParen | .rightParen | .leftBracket | .rightBracket | .comma | .arrow | .newline
    | .endOfInput => false

/-- The content before the end of input. -/
def Tokens.content (tokens : Tokens) : Tokens :=
  (tokens.takeWhile fun lexeme => lexeme.token ≠ .endOfInput).filter (·.token.isContent)

/-- What a walk through a tree comes across: a token, and its span if the tree has kept it. -/
structure Leaf where
  token : Token
  span? : Option Span

def Ident.leaf (ident : Ident) : Leaf :=
  ⟨.ident ident.name, some ident.span⟩

def Number.token : Number → Token
  | .int value => .int value
  | .float value => .float value

mutual

/-- A walk through a node in the order of the source. -/
def Node.leaves : Node → List Leaf
  | .number value span => [⟨value.token, some span⟩]
  | .string value span => [⟨.string value, some span⟩]
  | .list elements _ => Node.leavesOfAll elements
  | .variable ident => [ident.leaf]
  | .assign target value _ => target.leaf :: value.leaves
  | .binary left operator right _ => left.leaves ++ ⟨operator, none⟩ :: right.leaves
  | .unary operator operand _ => ⟨operator, none⟩ :: operand.leaves
  | .conditional condition body others _ => condition.leaves ++ (body.leaves ++ others.leaves)
  | .forLoop counter first limit step body _ =>
    counter.leaf :: (first.leaves ++ (limit.leaves ++ (Node.leavesOfOption step ++ body.leaves)))
  | .whileLoop condition body _ => condition.leaves ++ body.leaves
  | .repeatLoop count body _ => count.leaves ++ body.leaves
  | .function name params body _ =>
    name.toList.map Ident.leaf ++ (params.map Ident.leaf ++ body.leaves)
  | .call callee arguments _ => callee.leaves ++ Node.leavesOfAll arguments
  | .returning value _ => ⟨.keyword .returnWord, none⟩ :: Node.leavesOfOption value
  | .continuing span => [⟨.keyword .continueWord, some span⟩]
  | .breaking span => [⟨.keyword .breakWord, some span⟩]

def Node.leavesOfAll : List Node → List Leaf
  | [] => []
  | node :: rest => node.leaves ++ Node.leavesOfAll rest

def Node.leavesOfOption : Option Node → List Leaf
  | none => []
  | some node => node.leaves

def Body.leaves : Body → List Leaf
  | .inline statement => statement.leaves
  | .block statements _ => Node.leavesOfAll statements

def Branches.leaves : Branches → List Leaf
  | .none => []
  | .otherwise body => body.leaves
  | .elif condition body others => condition.leaves ++ (body.leaves ++ others.leaves)

end

def Block.leaves (program : Block) : List Leaf :=
  Node.leavesOfAll program.statements

/-- A walk through the part of the tree that stands for a phrase. -/
def Phrase.leaves : Phrase → List Leaf
  | .expression node | .statement node => node.leaves
  | .elements nodes | .lines nodes => Node.leavesOfAll nodes
  | .params idents => idents.map Ident.leaf
  | .step node => Node.leavesOfOption node
  | .closed inside | .body inside | .branch inside | .functionBody inside => inside.leaves
  | .branches condition first others => condition.leaves ++ (first.leaves ++ others.leaves)

/-- The leaf stands for the token in this place. -/
structure Leaf.Keeps (leaf : Leaf) (lexeme : Lexeme) : Prop where
  token : lexeme.token = leaf.token
  span : ∀ span ∈ leaf.span?, lexeme.span = span

/-- The leaves stand for the content of the tokens, one by one. -/
def Conserved (leaves : List Leaf) (tokens : Tokens) : Prop :=
  List.Forall₂ Leaf.Keeps leaves (tokens.filter (·.token.isContent))

namespace Conserved

variable {leaf : Leaf} {lexeme : Lexeme} {leaves leaves' : List Leaf} {tokens tokens' : Tokens}

theorem nil : Conserved [] [] :=
  List.Forall₂.nil

theorem append (first : Conserved leaves tokens) (second : Conserved leaves' tokens') :
    Conserved (leaves ++ leaves') (tokens ++ tokens') := by
  rw [Conserved, List.filter_append]
  exact List.rel_append first second

/-- Tokens without content may follow. -/
theorem behind (first : Conserved leaves tokens) (second : Conserved [] tokens') :
    Conserved leaves (tokens ++ tokens') := by
  have both := first.append second
  rwa [List.append_nil] at both

/-- A token of content has a leaf of its own. -/
theorem keep (content : lexeme.token.isContent = true) (keeps : leaf.Keeps lexeme)
    (behind : Conserved leaves tokens) : Conserved (leaf :: leaves) (lexeme :: tokens) := by
  rw [Conserved, List.filter_cons, if_pos content]
  exact .cons keeps behind

/-- A token that gives shape has none. -/
theorem drop (shape : lexeme.token.isContent = false) (behind : Conserved leaves tokens) :
    Conserved leaves (lexeme :: tokens) := by
  rw [Conserved, List.filter_cons, if_neg (by simp [shape])]
  exact behind

theorem dropAll (shape : ∀ lexeme ∈ tokens, lexeme.token.isContent = false) :
    Conserved [] tokens := by
  induction tokens with
  | nil => exact nil
  | cons lexeme tokens ih =>
    obtain ⟨first, others⟩ := List.forall_mem_cons.mp shape
    exact drop first (ih others)

theorem blank (newlines : tokens.Blank) : Conserved [] tokens :=
  dropAll fun lexeme member => by rw [newlines lexeme member]; rfl

theorem optional {token : Token} (shape : token.isContent = false)
    (skipped : Tokens.Optional token tokens) : Conserved [] tokens := by
  obtain rfl | ⟨span, rfl⟩ := skipped
  · exact nil
  · exact drop shape nil

end Conserved

/-- Tokens that the tree keeps without their spans. -/
theorem Leaf.keeps_token (token : Token) (span : Span) : Leaf.Keeps ⟨token, none⟩ ⟨token, span⟩ :=
  ⟨rfl, nofun⟩

theorem Leaf.keeps_span (token : Token) (span : Span) :
    Leaf.Keeps ⟨token, some span⟩ ⟨token, span⟩ :=
  ⟨rfl, fun _ same => Option.some.inj same⟩

theorem Token.isContent_of_mem_infixes {token : Token} (known : token ∈ infixes) :
    token.isContent = true := by
  revert token
  decide

theorem Token.isContent_of_mem_signs {token : Token} (sign : token ∈ signs) :
    token.isContent = true := by
  revert token
  decide

theorem conserved_idents (idents : List Ident) :
    Conserved (idents.map Ident.leaf) (idents.map Ident.lexeme) := by
  induction idents with
  | nil => exact .nil
  | cons ident idents ih => exact .keep rfl (Leaf.keeps_span _ _) ih

open Conserved Leaf in
/-- However a phrase is written, its part of the tree keeps the content of the tokens. -/
theorem Written.conserved {tokens : Tokens} {phrase : Phrase} (written : Written tokens phrase) :
    Conserved phrase.leaves tokens := by
  induction written with
  | int | float | string | access => exact .keep rfl (keeps_span _ _) .nil
  | assign _ right => exact .keep rfl (keeps_span _ _) (.drop rfl right)
  | parens _ inside => exact .drop rfl (inside.behind (.drop rfl .nil))
  | list _ inside => exact .drop rfl (inside.behind (.drop rfl .nil))
  | unary sign _ behind =>
    exact .keep (Token.isContent_of_mem_signs sign) (keeps_token _ _) behind
  | binary known _ _ before behind =>
    exact before.append (.keep (Token.isContent_of_mem_infixes known) (keeps_token _ _) behind)
  | call _ _ before inside => exact before.append (.drop rfl (inside.behind (.drop rfl .nil)))
  | conditional _ behind => exact .drop rfl behind
  | forLoop _ _ _ _ start stop stride inside =>
    exact .drop rfl (.keep rfl (keeps_span _ _) (.drop rfl
      (start.append (.drop rfl (stop.append (stride.append (.drop rfl inside)))))))
  | whileLoop _ _ test inside => exact .drop rfl (test.append (.drop rfl inside))
  | repeatLoop _ skipped _ number inside =>
    exact .drop rfl (number.append (.drop rfl ((optional rfl skipped).append inside)))
  | function _ _ names inside =>
    exact .drop rfl ((conserved_idents _).append (.drop rfl (names.append (.drop rfl inside))))
  | value _ inside => exact inside
  | returnNothing => exact .keep rfl (keeps_token _ _) .nil
  | returnValue _ behind => exact .keep rfl (keeps_token _ _) behind
  | continuing | breaking => exact .keep rfl (keeps_span _ _) .nil
  | noElement | noLine | noParam | noStep => exact .nil
  | element _ inside | line _ inside =>
    simpa [Phrase.leaves, Node.leavesOfAll] using inside
  | elements _ _ first others => exact first.append (.drop rfl others)
  | lines _ newlines _ _ first others => exact first.append ((blank newlines).append others)
  | param => exact .keep rfl (keeps_span _ _) .nil
  | params _ others => exact .keep rfl (keeps_span _ _) (.drop rfl others)
  | step _ behind => exact .drop rfl behind
  | closed newlines _ inside => exact (blank newlines).append (inside.behind (.drop rfl .nil))
  | block _ inside | branchLine _ inside => exact inside
  | inline _ skipped inside => exact inside.behind (optional rfl skipped)
  | branchBlock newlines _ inside => exact .drop rfl ((blank newlines).append inside)
  | arrow _ behind => exact .drop rfl behind
  | functionBlock skipped _ inside => exact (optional rfl skipped).append inside
  | lastBranch _ _ skipped test inside =>
    exact test.append (.drop rfl (inside.append (optional rfl skipped)))
  | elif _ _ _ test inside behind =>
    exact test.append (.drop rfl (inside.append (.drop rfl behind)))
  | otherwise _ _ _ test inside behind =>
    exact test.append (.drop rfl (inside.append (.drop rfl behind)))

/-- The tokens up to the end of input are those of a parsed program. -/
theorem Tokens.content_eq {front left : Tokens} (proper : front.Proper)
    (ends : left.current = .endOfInput) :
    (front ++ left).content = front.filter (·.token.isContent) := by
  have stops : left.takeWhile (fun lexeme => lexeme.token ≠ .endOfInput) = [] := by
    cases left with
    | nil => rfl
    | cons lexeme left => simp [show lexeme.token = .endOfInput from ends]
  have passes : ∀ lexeme ∈ front, decide (lexeme.token ≠ .endOfInput) = true :=
    fun lexeme member => decide_eq_true (proper lexeme member)
  rw [content, List.takeWhile_append_of_pos passes, stops, List.append_nil]

/-- Parsing loses no content, repeats none and keeps it in order: a walk through the program comes
across the content of the tokens, and names and literals stand where their tokens stood. -/
theorem content_conserved {tokens : Tokens} {program : Block}
    (parsed : parseTokens tokens = .ok program) :
    program.leaves.map Leaf.token = tokens.content.map Lexeme.token ∧
      List.Forall₂ (fun leaf lexeme => ∀ span ∈ leaf.span?, lexeme.span = span)
        program.leaves tokens.content := by
  obtain ⟨left, ran⟩ := parseTokens_eq_ok_iff.mp parsed
  obtain ⟨newlines, w, rfl, newline, proper, written, ends⟩ := Grammar.written_of_program ran
  have conserved : List.Forall₂ Leaf.Keeps program.leaves
      (Tokens.content (newlines ++ (w ++ left))) := by
    rw [← List.append_assoc, Tokens.content_eq ((Tokens.Blank.proper newline).append proper) ends]
    exact (Conserved.blank newline).append written.conserved
  constructor
  · rw [← List.forall₂_eq_eq_eq, List.forall₂_map_left_iff, List.forall₂_map_right_iff]
    exact conserved.imp fun _ _ keeps => keeps.token.symm
  · exact conserved.imp fun _ _ keeps => keeps.span

/-- In `f(-x, 2)` the brackets and the comma go, and what follows the end of input is not read. -/
theorem content_conserved_call :
    let tokens : Tokens := [⟨.ident "f", ⟨0, 1⟩⟩, ⟨.leftParen, ⟨1, 2⟩⟩, ⟨.minus, ⟨2, 3⟩⟩,
      ⟨.ident "x", ⟨3, 4⟩⟩, ⟨.comma, ⟨4, 5⟩⟩, ⟨.int 2, ⟨6, 7⟩⟩, ⟨.rightParen, ⟨7, 8⟩⟩,
      ⟨.endOfInput, ⟨8, 8⟩⟩, ⟨.ident "y", ⟨9, 10⟩⟩]
    ∃ program : Block, parseTokens tokens = .ok program ∧
      program.leaves = [⟨.ident "f", some ⟨0, 1⟩⟩, ⟨.minus, none⟩, ⟨.ident "x", some ⟨3, 4⟩⟩,
        ⟨.int 2, some ⟨6, 7⟩⟩] ∧
      program.leaves.map Leaf.token = tokens.content.map Lexeme.token :=
  ⟨_, rfl, rfl, (content_conserved rfl).1⟩

end Primer
