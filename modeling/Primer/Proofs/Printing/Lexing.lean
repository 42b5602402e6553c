import Primer.Proofs.Printing.Faithful
import Primer.Proofs.Printing.Tokens

/-!
# Reading the text of printed programs

The text of a readable node is read as its tokens, in front of any text that does not go on with it.
-/

namespace Primer

open Lexer

-- What a text and its tokens are, by the kind of node, is used in every proof below.
attribute [local simp] Node.text Node.tokens Keyword.text

/-- The characters that the text of a statement starts with. -/
def isStart (c : Char) : Bool :=
  isWordStart c || Decimal.isDigit c || c == '"' || c == '(' || c == '['

/-- The text starts with such a character. -/
def Starts (text : List Char) : Prop :=
  ∃ c tail, text = c :: tail ∧ isStart c = true

variable {text rest : List Char} {tokens : List Token}

theorem Starts.append (starts : Starts text) (rest : List Char) : Starts (text ++ rest) := by
  obtain ⟨c, tail, rfl, start⟩ := starts
  exact ⟨c, tail ++ rest, rfl, start⟩

theorem Starts.visible (starts : Starts text) : Visible text := by
  obtain ⟨c, tail, rfl, start⟩ := starts
  -- None of the characters of layout starts a statement.
  have other : c ∉ [' ', '\t', '\x0c', '\r', '\n', ';', '#'] := not_mem_of_all (by decide) start
  simp only [List.mem_cons, List.not_mem_nil, or_false, not_or] at other
  exact ⟨c, tail, rfl, by simp [isBlank, other], by simp [isSeparator, other], other.2.2.2.2.2.2⟩

theorem Starts.head?_ne (starts : Starts text) : text.head? ≠ some '>' := by
  obtain ⟨c, tail, rfl, start⟩ := starts
  rintro same
  obtain rfl : c = '>' := Option.some.inj same
  exact absurd start (by decide)

theorem IsWord.starts (word : IsWord text) : Starts text := by
  obtain ⟨c, tail, rfl⟩ := List.exists_cons_of_ne_nil word.nonempty
  exact ⟨c, tail, rfl, by simp [isStart, word.start c rfl]⟩

/-- A token of one character. -/
theorem Reads.symbol (c : Char) (token : Token) (spelling : token.literal.toList = [c])
    (spelled : token.Spelled) (separate : token.Separate rest) (reads : Reads rest tokens) :
    Reads (c :: rest) (token :: tokens) := by
  have read := reads.token token spelled separate
  rwa [spelling] at read

theorem Reads.keyword (keyword : Keyword) (breaks : Breaks rest) (reads : Reads rest tokens) :
    Reads (keyword.text.toList ++ rest) (.keyword keyword :: tokens) :=
  reads.token (.keyword keyword) trivial breaks

/-- The text of a node is read as its tokens, in front of any text that breaks words off. -/
structure Node.Legible (node : Node) : Prop where
  starts : Starts node.text.toList
  reads : ∀ {rest : List Char} {tokens : List Token}, Breaks rest → Reads rest tokens →
    Reads (node.text.toList ++ rest) (node.tokens ++ tokens)

theorem reads_joined {elements : List Node} (each : ∀ element ∈ elements, element.Legible)
    (breaks : Breaks rest) (reads : Reads rest tokens) :
    Reads ((Node.joined ", " elements).toList ++ rest) (Node.commaTokens elements ++ tokens) := by
  match elements with
  | [] => exact reads
  | [node] => exact (each node (List.mem_singleton.mpr rfl)).reads breaks reads
  | node :: next :: others =>
    have behind := reads_joined (fun element member =>
      each element (List.mem_cons_of_mem _ member)) breaks reads
    have comma := behind.space.symbol ',' .comma rfl trivial trivial
    have first := (each node List.mem_cons_self).reads (breaks_cons rfl) comma
    simpa [Node.joined, Node.commaTokens] using first

theorem digit_starts {c : Char} (digit : Decimal.isDigit c = true) (tail : List Char) :
    Starts (c :: tail) :=
  ⟨c, tail, rfl, by simp [isStart, digit]⟩

private theorem digits_start {value : Int64} (positive : 0 ≤ value.toInt) :
    Starts (Token.int value).literal.toList := by
  obtain ⟨n, toNat⟩ := Int.eq_ofNat_of_zero_le positive
  obtain ⟨c, tail, digits⟩ := List.exists_cons_of_ne_nil (Nat.toDigits_ne_nil (n := n) (b := 10))
  have digit : Decimal.isDigit c = true :=
    Nat.isDigit_of_mem_toDigits (b := 10) (n := n) (by decide) (by decide)
      (by rw [digits]; exact List.mem_cons_self)
  have text : (Token.int value).literal.toList = c :: tail := by
    rw [Token.literal, String.toList_ofList, toNat, ← digits]
    rfl
  exact text ▸ digit_starts digit tail

theorem Decimal.Denotes.starts {value : Float} (denotes : Decimal.Denotes text value) :
    Starts text := by
  obtain ⟨whole, fraction, rfl, nonempty, digits, -⟩ := denotes
  obtain ⟨c, tail, rfl⟩ := List.exists_cons_of_ne_nil nonempty
  exact digit_starts (digits c List.mem_cons_self) _

private theorem spelled_of_mem_infixes {operator : Token} (known : operator ∈ Token.infixes) :
    operator.Spelled := by
  simp only [Token.infixes, List.mem_cons, List.not_mem_nil, or_false] at known
  rcases known with rfl | rfl | rfl | rfl | rfl | rfl | rfl | rfl | rfl | rfl | rfl | rfl | rfl | rfl
  all_goals trivial

theorem starts_joined {separator : String} {first : Node} {others : List Node}
    (legible : first.Legible) : Starts (Node.joined separator (first :: others)).toList := by
  cases others with
  | nil => exact legible.starts
  | cons next others =>
    simpa [Node.joined] using
      legible.starts.append (separator.toList ++ (Node.joined separator (next :: others)).toList)

/-- Statements with a separator between them and a line feed behind them. -/
private theorem reads_statements {first : Node} {others : List Node}
    (each : ∀ statement ∈ first :: others, statement.Legible) (visible : Visible rest)
    (reads : Reads rest tokens) :
    Reads ((Node.joined "; " (first :: others)).toList ++ '\n' :: rest)
      (Node.lineTokens (first :: others) ++ tokens) := by
  induction others generalizing first with
  | nil =>
    have newline := reads.newline '\n' [] rfl (List.forall_mem_nil _) visible
    have whole := (each first List.mem_cons_self).reads (breaks_cons rfl) newline
    simpa [Node.joined, Node.lineTokens] using whole
  | cons next others ih =>
    have rest := List.forall_mem_cons.mp each
    have behind := ih rest.2
    -- The run of separators ends at the next statement, which is visible.
    have start : Starts (Node.joined "; " (next :: others)).toList :=
      starts_joined (rest.2 next List.mem_cons_self)
    have newline := behind.newline ';' [' '] rfl (by simp [isBlank])
      (start.append _).visible
    have whole := rest.1.reads (breaks_cons rfl) newline
    simpa [Node.joined, Node.lineTokens] using whole

/-- The statements of a block, up to the line feed behind them. -/
theorem reads_lines {statements : List Node} (each : ∀ statement ∈ statements, statement.Legible)
    (visible : Visible rest) (reads : Reads rest tokens) :
    Reads ('\n' :: ((Node.joined "; " statements).toList ++ '\n' :: rest))
      (.newline :: (Node.lineTokens statements ++ tokens)) := by
  cases statements with
  -- Two line feeds with nothing between them are one newline.
  | nil => exact reads.newline '\n' ['\n'] rfl (by simp [isSeparator]) visible
  | cons first others =>
    have start : Starts (Node.joined "; " (first :: others)).toList :=
      starts_joined (each first List.mem_cons_self)
    exact (reads_statements each visible reads).newline '\n' [] rfl (List.forall_mem_nil _)
      (start.append _).visible

/-- A block with the word that closes it. -/
theorem reads_block {statements : List Node} (each : ∀ statement ∈ statements, statement.Legible)
    (keyword : Keyword) (breaks : Breaks rest) (reads : Reads rest tokens) :
    Reads ('\n' :: ((Node.joined "; " statements).toList ++ '\n' :: (keyword.text.toList ++ rest)))
      (.newline :: (Node.lineTokens statements ++ .keyword keyword :: tokens)) :=
  reads_lines each ((isWord_keyword keyword).starts.append rest).visible
    (reads.keyword keyword breaks)

section Body

variable {body : Body} (each : ∀ statement ∈ body.statements, statement.Legible)
include each

/-- A body, a block with its `end`. -/
theorem reads_closed (breaks : Breaks rest) (reads : Reads rest tokens) :
    Reads (body.closed.toList ++ rest) (body.closedTokens ++ tokens) := by
  cases body with
  | inline statement =>
    have whole := ((each statement List.mem_cons_self).reads breaks reads).space
    simpa [Body.closed, Body.closedTokens] using whole
  | block statements span =>
    have whole := reads_block each .endWord breaks reads
    simpa [Body.closed, Body.closedTokens, Body.statements] using whole

/-- A body in front of a word, which stands on a line of its own behind a block. -/
theorem reads_opened (keyword : Keyword) (breaks : Breaks rest) (reads : Reads rest tokens) :
    Reads (body.opened.toList ++ (if body.isBlock then '\n' else ' ') :: (keyword.text.toList ++ rest))
      (body.tokens ++ .keyword keyword :: tokens) := by
  cases body with
  | inline statement =>
    have behind := (reads.keyword keyword breaks).space
    have whole := ((each statement List.mem_cons_self).reads (breaks_cons rfl) behind).space
    simpa [Body.opened, Body.tokens, Body.isBlock] using whole
  | block statements span =>
    have whole := reads_block each keyword breaks reads
    simpa [Body.opened, Body.tokens, Body.isBlock, Body.statements] using whole

end Body

theorem breaks_closed {body : Body} : Breaks (body.closed.toList ++ rest) := by
  cases body <;> simp only [Body.closed, String.toList_append] <;> exact breaks_cons rfl

theorem breaks_opened {body : Body} : Breaks (body.opened.toList ++ rest) := by
  cases body <;> simp only [Body.opened, String.toList_append] <;> exact breaks_cons rfl

/-- The body of a branch with the branches after it. -/
theorem reads_branches {body : Body} {others : Branches}
    (each : ∀ statement ∈ body.statements, statement.Legible)
    (nodes : ∀ node ∈ others.nodes, node.Legible) (aligned : others.Aligned body)
    (breaks : Breaks rest) (reads : Reads rest tokens) :
    Reads (body.opened.toList ++ ((others.text body.isBlock).toList ++ rest))
      (body.tokens ++ (others.tokens body.isBlock ++ tokens)) := by
  cases others with
  | none =>
    cases body with
    | inline statement =>
      have whole := ((each statement List.mem_cons_self).reads breaks reads).space
      simpa [Branches.text, Branches.tokens, Body.opened, Body.tokens, Body.isBlock] using whole
    | block statements span =>
      have whole := reads_block each .endWord breaks reads
      simpa [Branches.text, Branches.tokens, Body.opened, Body.tokens, Body.isBlock,
        Body.statements] using whole
  | otherwise last =>
    have closed := reads_closed nodes breaks reads
    have whole := reads_opened each .elseWord breaks_closed closed
    cases block : body.isBlock <;>
      simpa [Branches.text, Branches.tokens, block] using whole
  | elif condition next others =>
    have test := List.forall_mem_cons.mp nodes
    have rest := List.forall_mem_append.mp test.2
    have behind := reads_branches rest.1 rest.2 aligned.2.2 breaks reads
    have opened := (behind.keyword .thenWord breaks_opened).space
    have condition := (test.1.reads (breaks_cons rfl) opened).space
    have whole := reads_opened each .elifWord (breaks_cons rfl) condition
    -- The branches are laid out alike, so the line break before `elif` is there if it is needed.
    have same : next.isBlock = body.isBlock := aligned.1
    cases block : body.isBlock <;>
      simpa [Branches.text, Branches.tokens, block, same] using whole

/-- Names with commas between them. -/
theorem reads_params {params : List Ident} (names : ∀ param ∈ params, IsName param.name)
    (breaks : Breaks rest) (reads : Reads rest tokens) :
    Reads ((", ".intercalate (params.map Ident.name)).toList ++ rest)
      (Ident.paramTokens params ++ tokens) := by
  match params with
  | [] => exact reads
  | [param] => exact reads.token (.ident param.name) (names param List.mem_cons_self) breaks
  | param :: next :: others =>
    have name := List.forall_mem_cons.mp names
    have behind := reads_params name.2 breaks reads
    have comma := behind.space.symbol ',' .comma rfl trivial trivial
    have first := comma.token (.ident param.name) name.1 (breaks_cons rfl)
    simpa [Ident.paramTokens, Token.literal] using first

/-- A function, given its body. -/
private theorem reads_function {name : Option Ident} {params : List Ident} {body : Body} {span : Span}
    (names : ∀ ident ∈ name, IsName ident.name) (idents : ∀ param ∈ params, IsName param.name)
    (reads : Reads (body.afterParams.toList ++ rest) (body.functionTokens ++ tokens)) :
    Reads ((Node.function name params body span).text.toList ++ rest)
      ((Node.function name params body span).tokens ++ tokens) := by
  have close := reads.symbol ')' .rightParen rfl trivial trivial
  have parameters := reads_params idents (breaks_cons rfl) close
  have opened := parameters.symbol '(' .leftParen rfl trivial trivial
  cases name with
  | none =>
    have whole := opened.keyword .funWord (breaks_cons rfl)
    simpa [Ident.optionTokens] using whole
  | some ident =>
    have named := (opened.token (.ident ident.name) (names ident rfl) (breaks_cons rfl)).space
    have whole := named.keyword .funWord (breaks_cons rfl)
    simpa [Ident.optionTokens, Token.literal] using whole

private theorem reads_step {step : Option Node} (legible : ∀ node ∈ step, node.Legible)
    (breaks : Breaks rest) (reads : Reads rest tokens) :
    Reads ((Node.stepText step).toList ++ rest) (Node.stepTokens step ++ tokens) := by
  cases step with
  | none => exact reads
  | some node =>
    have stride := ((legible node rfl).reads breaks reads).space
    have whole := (stride.keyword .stepWord (breaks_cons rfl)).space
    simpa [Node.stepText, Node.stepTokens] using whole

private theorem breaks_stepText {step : Option Node} :
    Breaks ((Node.stepText step).toList ++ ' ' :: rest) := by
  cases step with
  | none => exact breaks_cons rfl
  | some node =>
    rw [Node.stepText, String.toList_append]
    exact breaks_cons rfl

namespace Node.Legible

variable {span : Span}

theorem ofList {elements : List Node} (each : ∀ element ∈ elements, element.Legible) :
    (Node.list elements span).Legible := by
  refine ⟨⟨'[', (Node.joined ", " elements).toList ++ [']'], by simp, rfl⟩,
    fun breaks reads => ?_⟩
  have close := reads.symbol ']' .rightBracket rfl trivial trivial
  have inside := reads_joined each (breaks_cons rfl) close
  have whole := inside.symbol '[' .leftBracket rfl trivial trivial
  simpa using whole

theorem ofCall {callee : Node} {arguments : List Node} (function : callee.Legible)
    (each : ∀ argument ∈ arguments, argument.Legible) :
    (Node.call callee arguments span).Legible := by
  refine ⟨by simpa using function.starts.append _, fun breaks reads => ?_⟩
  have close := reads.symbol ')' .rightParen rfl trivial trivial
  have inside := reads_joined each (breaks_cons rfl) close
  have opened := inside.symbol '(' .leftParen rfl trivial trivial
  have whole := function.reads (breaks_cons rfl) opened
  simpa using whole

theorem ofUnary {operator : Token} {operand : Node} (sign : operator ∈ Token.signs)
    (child : operand.Legible) : (Node.unary operator operand span).Legible := by
  simp only [Token.signs, List.mem_cons, List.not_mem_nil, or_false] at sign
  refine ⟨?_, @fun rest tokens breaks reads => ?_⟩
  · rcases sign with rfl | rfl | rfl
    all_goals exact ⟨'(', _, by simp; rfl, rfl⟩
  · have close := reads.symbol ')' .rightParen rfl trivial trivial
    have inner := child.reads (breaks_cons rfl) close
    rcases sign with rfl | rfl | rfl
    · have whole := (inner.symbol '+' .plus rfl trivial trivial).symbol '(' .leftParen rfl
        trivial trivial
      simpa [Token.literal] using whole
    -- A minus before `>` would be an arrow.
    · have separate := (child.starts.append (')' :: rest)).head?_ne
      have whole := (inner.symbol '-' .minus rfl trivial separate).symbol '(' .leftParen rfl
        trivial trivial
      simpa [Token.literal] using whole
    · have whole := (inner.space.keyword .notWord (breaks_cons rfl)).symbol '(' .leftParen rfl
        trivial trivial
      simpa using whole

theorem ofBinary {left right : Node} {operator : Token} (known : operator ∈ Token.infixes)
    (first : left.Legible) (second : right.Legible) :
    (Node.binary left operator right span).Legible := by
  refine ⟨⟨'(', _, by simp only [Node.text, String.toList_append]; rfl, rfl⟩,
    fun breaks reads => ?_⟩
  have close := reads.symbol ')' .rightParen rfl trivial trivial
  have right := (second.reads (breaks_cons rfl) close).space
  have operator := right.token operator (spelled_of_mem_infixes known) operator.separate_space
  have left := first.reads (breaks_cons rfl) operator.space
  have whole := left.symbol '(' .leftParen rfl trivial trivial
  simpa using whole

theorem ofAssign {target : Ident} {value : Node} (name : IsName target.name)
    (legible : value.Legible) : (Node.assign target value span).Legible := by
  refine ⟨by simpa using name.1.starts.append _, fun breaks reads => ?_⟩
  have value := (legible.reads breaks reads).space
  have sign := (value.symbol '=' .assign rfl trivial (Token.separate_space _)).space
  have whole := sign.token (.ident target.name) name (breaks_cons rfl)
  simpa [Token.literal] using whole

theorem ofReturning {value : Option Node} (legible : ∀ node ∈ value, node.Legible) :
    (Node.returning value span).Legible := by
  refine ⟨⟨'r', _, by simp; rfl, rfl⟩, fun breaks reads => ?_⟩
  cases value with
  | none =>
    simpa [Node.returnedText, Node.valueTokens] using
      reads.keyword .returnWord breaks
  | some value =>
    have value := ((legible value rfl).reads breaks reads).space
    have whole := value.keyword .returnWord (breaks_cons rfl)
    simpa [Node.returnedText, Node.valueTokens] using whole

section Body

variable {body : Body} (each : ∀ statement ∈ body.statements, statement.Legible)
include each

theorem ofFor {counter : Ident} {first limit : Node} {step : Option Node}
    (name : IsName counter.name) (start : first.Legible) (stop : limit.Legible)
    (stride : ∀ node ∈ step, node.Legible) :
    (Node.forLoop counter first limit step body span).Legible := by
  refine ⟨⟨'f', _, by simp; rfl, rfl⟩, fun breaks reads => ?_⟩
  have opened := (reads_closed each breaks reads).keyword .thenWord breaks_closed
  have stride := reads_step stride (breaks_cons rfl) opened.space
  have limit := (stop.reads breaks_stepText stride).space
  have first := (start.reads (breaks_cons rfl)
    (limit.keyword .toWord (breaks_cons rfl)).space).space
  have sign := (first.symbol '=' .assign rfl trivial (Token.separate_space _)).space
  have counter := (sign.token (.ident counter.name) name (breaks_cons rfl)).space
  have whole := counter.keyword .forWord (breaks_cons rfl)
  simpa [Token.literal] using whole

theorem ofWhile {condition : Node} (test : condition.Legible) :
    (Node.whileLoop condition body span).Legible := by
  refine ⟨⟨'w', _, by simp; rfl, rfl⟩, fun breaks reads => ?_⟩
  have opened := (reads_closed each breaks reads).keyword .thenWord breaks_closed
  have condition := (test.reads (breaks_cons rfl) opened.space).space
  have whole := condition.keyword .whileWord (breaks_cons rfl)
  simpa using whole

theorem ofRepeat {count : Node} (times : count.Legible) :
    (Node.repeatLoop count body span).Legible := by
  refine ⟨⟨'r', _, by simp; rfl, rfl⟩, fun breaks reads => ?_⟩
  have opened := (reads_closed each breaks reads).keyword .thenWord breaks_closed
  have counted := (opened.space.keyword .timesWord (breaks_cons rfl)).space
  have count := (times.reads (breaks_cons rfl) counted).space
  have whole := count.keyword .repeatWord (breaks_cons rfl)
  simpa using whole

theorem ofConditional {condition : Node} {others : Branches} (test : condition.Legible)
    (nodes : ∀ node ∈ others.nodes, node.Legible) (aligned : others.Aligned body) :
    (Node.conditional condition body others span).Legible := by
  refine ⟨⟨'i', _, by simp; rfl, rfl⟩, fun breaks reads => ?_⟩
  have behind := reads_branches each nodes aligned breaks reads
  have opened := (behind.keyword .thenWord breaks_opened).space
  have condition := (test.reads (breaks_cons rfl) opened).space
  have whole := condition.keyword .ifWord (breaks_cons rfl)
  simpa using whole

theorem ofFunction {name : Option Ident} {params : List Ident}
    (names : ∀ ident ∈ name.toList ++ params, IsName ident.name) :
    (Node.function name params body span).Legible := by
  have both := List.forall_mem_append.mp names
  refine ⟨⟨'f', _, by simp; rfl, rfl⟩, fun breaks reads => ?_⟩
  refine reads_function (fun ident member => both.1 ident (by simpa using member)) both.2 ?_
  cases body with
  | inline value =>
    have value := ((each value List.mem_cons_self).reads breaks reads).space
    have arrow := value.token .arrow trivial trivial
    simpa [Body.afterParams, Body.functionTokens, Token.literal] using arrow.space
  | block statements _ =>
    have opened := (reads_block each .endWord breaks reads).keyword .thenWord (breaks_cons rfl)
    simpa [Body.afterParams, Body.functionTokens, Body.statements] using opened.space

end Body

end Node.Legible

/-- The text of a readable node is read as its tokens. -/
theorem Node.Readable.legible {node : Node} (readable : node.Readable) : node.Legible := by
  induction node using Node.parts_induction with
  | step node ih =>
  -- Each part is read in front of whatever the node puts behind it.
  have parts : ∀ part ∈ node.parts, part.Legible := fun part member =>
    ih part member (readable.part member)
  have grammatical := readable.grammatical
  have faithful := readable.faithful
  cases node with
  | number value span =>
    cases value with
    | int value =>
      exact ⟨digits_start grammatical, fun breaks reads => reads.token (.int _) grammatical breaks⟩
    | float value =>
      exact ⟨faithful.denotes.starts, fun breaks reads => reads.float faithful.denotes breaks⟩
  | string value span =>
    refine ⟨⟨'"', value.toList.flatMap (Text.spell '"') ++ ['"'], ?_, rfl⟩, fun _ reads =>
      reads.token (.string value) faithful trivial⟩
    simp [Text.quote]
  | «variable» ident =>
    exact ⟨grammatical.1.starts, fun breaks reads => reads.token (.ident _) grammatical breaks⟩
  | continuing span =>
    refine ⟨⟨'c', _, by simp; rfl, rfl⟩, fun breaks reads => ?_⟩
    simpa using reads.keyword .continueWord breaks
  | breaking span =>
    refine ⟨⟨'b', _, by simp; rfl, rfl⟩, fun breaks reads => ?_⟩
    simpa using reads.keyword .breakWord breaks
  | list elements span => exact .ofList parts
  | assign target value span => exact .ofAssign grammatical.1 (parts value List.mem_cons_self)
  | unary operator operand span => exact .ofUnary grammatical.1 (parts operand List.mem_cons_self)
  | binary left operator right span =>
    exact .ofBinary grammatical.1 (parts left (by simp [Node.parts, Node.children]))
      (parts right (by simp [Node.parts, Node.children]))
  | call callee arguments span =>
    have both := List.forall_mem_cons.mp parts
    exact .ofCall both.1 both.2
  | returning value span =>
    exact .ofReturning fun node member =>
      parts node (by simpa [Node.parts, Node.children] using member)
  | forLoop counter first limit step body span =>
    have all := List.forall_mem_append.mp parts
    have headers := List.forall_mem_cons.mp all.1
    have bounds := List.forall_mem_cons.mp headers.2
    exact .ofFor all.2 grammatical.1 headers.1 bounds.1 fun node member =>
      bounds.2 node (by simpa using member)
  | whileLoop condition body span =>
    have both := List.forall_mem_cons.mp parts
    exact .ofWhile both.2 both.1
  | repeatLoop count body span =>
    have both := List.forall_mem_cons.mp parts
    exact .ofRepeat both.2 both.1
  | conditional condition body others span =>
    have all := List.forall_mem_append.mp parts
    have both := List.forall_mem_cons.mp all.1
    exact .ofConditional both.2 both.1 all.2 faithful.2
  | function name params body span => exact .ofFunction parts grammatical.1

/-- The statements of a program. -/
theorem reads_program {statements : List Node}
    (each : ∀ statement ∈ statements, statement.Legible) :
    Reads (Node.joined "; " statements).toList (Node.joinedTokens statements ++ [.endOfInput]) := by
  match statements with
  | [] => exact .nil
  | [statement] =>
    have breaks : Breaks [] := nofun
    have whole := (each statement List.mem_cons_self).reads breaks .nil
    simpa [Node.joined, Node.joinedTokens] using whole
  | statement :: next :: others =>
    have rest := List.forall_mem_cons.mp each
    have start : Starts (Node.joined "; " (next :: others)).toList :=
      starts_joined (rest.2 next List.mem_cons_self)
    have newline := (reads_program rest.2).newline ';' [' '] rfl
      (by simp [isBlank]) start.visible
    have whole := rest.1.reads (breaks_cons rfl) newline
    simpa [Node.joined, Node.joinedTokens] using whole

end Primer
