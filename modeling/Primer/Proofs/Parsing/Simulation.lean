import Primer.Proofs.Parsing.Run

/-!
# Parsing in step

Two parsers run in step over token lists that correspond lexeme by lexeme. A `Simulation` says which
lexemes, errors and nodes correspond; `Lawful` says that the grammar builds corresponding nodes from
corresponding parts. The combinators of this module put parsers that run in step together, and count
the tokens that are passed for certain: `Related n d` concerns lists of at most `n` tokens, and a parser
that succeeds passes at least `d` of them.
-/

namespace Primer

/-- What two runs of the parser have in common. -/
structure Simulation where
  lexemes : Lexeme → Lexeme → Prop
  /-- Errors, with the tokens left where they arise. -/
  errors : ParseError → ParseError → Tokens → Tokens → Prop
  spans : Span → Span → Prop
  idents : Ident → Ident → Prop
  nodes : Node → Node → Prop
  bodies : Body → Body → Prop
  branches : Branches → Branches → Prop

namespace Simulation

variable (S : Simulation)

/-- Tokens that correspond one by one. -/
def tokens (first second : Tokens) : Prop :=
  List.Forall₂ S.lexemes first second

/-- Corresponding results of two parsers that started with `length` tokens. -/
inductive Outcomes (length d : Nat) {α : Type} (post : α → α → Prop) :
    EStateM.Result ParseError Tokens α → EStateM.Result ParseError Tokens α → Prop
  | ok {a a' : α} {left left' : Tokens} (tokens : S.tokens left left')
      (passed : left.length + d ≤ length) (results : post a a') :
      Outcomes length d post (.ok a left) (.ok a' left')
  | error {e e' : ParseError} {left left' : Tokens} (tokens : S.tokens left left')
      (passed : left.length ≤ length) (errors : S.errors e e' left left') :
      Outcomes length d post (.error e left) (.error e' left')

/-- Two parsers run in step on lists of at most `n` tokens and pass at least `d`. -/
def Related (n d : Nat) {α : Type} (post : α → α → Prop) (x x' : Parser α) : Prop :=
  ∀ tokens tokens' : Tokens, S.tokens tokens tokens' → tokens.length ≤ n →
    S.Outcomes tokens.length d post (x tokens) (x' tokens')

/-- Two parsers run in step on lists that start with the given token. -/
def RelatedAt (token : Token) (n d : Nat) {α : Type} (post : α → α → Prop)
    (x x' : Parser α) : Prop :=
  ∀ tokens tokens' : Tokens, S.tokens tokens tokens' → tokens.current = token →
    tokens.length ≤ n → S.Outcomes tokens.length d post (x tokens) (x' tokens')

/-- What the grammar builds from corresponding parts has to correspond. -/
structure Lawful : Prop where
  token : ∀ {lexeme lexeme'}, S.lexemes lexeme lexeme' → lexeme.token = lexeme'.token
  span : ∀ {lexeme lexeme'}, S.lexemes lexeme lexeme' → S.spans lexeme.span lexeme'.span
  /-- The span behind the last token. -/
  noSpan : S.spans ⟨0, 0⟩ ⟨0, 0⟩
  unexpected : ∀ {left left' : Tokens} expected, S.tokens left left' →
    S.errors (left.unexpected expected) (left'.unexpected expected) left left'
  expectedIdent : ∀ {left left' : Tokens}, S.tokens left left' →
    S.errors ⟨.expectedIdent, left.span⟩ ⟨.expectedIdent, left'.span⟩ left left'
  expectedExpression : ∀ {left left' : Tokens}, S.tokens left left' →
    S.errors ⟨.expectedExpression, left.span⟩ ⟨.expectedExpression, left'.span⟩ left left'
  ident : ∀ {span span'} name, S.spans span span' → S.idents ⟨name, span⟩ ⟨name, span'⟩
  number : ∀ {span span'} value, S.spans span span' →
    S.nodes (.number value span) (.number value span')
  string : ∀ {span span'} value, S.spans span span' →
    S.nodes (.string value span) (.string value span')
  list : ∀ {first first' last last' elements elements'}, S.spans first first' →
    S.spans last last' → List.Forall₂ S.nodes elements elements' →
    S.nodes (.list elements (first.through last)) (.list elements' (first'.through last'))
  access : ∀ {ident ident'}, S.idents ident ident' → S.nodes (.variable ident) (.variable ident')
  assign : ∀ {target target' value value'}, S.idents target target' → S.nodes value value' →
    S.nodes (.assign target value (target.span.through value.span))
      (.assign target' value' (target'.span.through value'.span))
  binary : ∀ {left left' right right'} operator, S.nodes left left' → S.nodes right right' →
    S.nodes (.binary left operator right (left.span.through right.span))
      (.binary left' operator right' (left'.span.through right'.span))
  unary : ∀ {here here' operand operand'} operator, S.spans here here' →
    S.nodes operand operand' →
    S.nodes (.unary operator operand (here.through operand.span))
      (.unary operator operand' (here'.through operand'.span))
  conditional : ∀ {condition condition' body body' others others'},
    S.nodes condition condition' → S.bodies body body' → S.branches others others' →
    S.nodes
      (.conditional condition body others
        (condition.span.through (others.lastBody body).span))
      (.conditional condition' body' others'
        (condition'.span.through (others'.lastBody body').span))
  forLoop : ∀ {counter counter' first first' limit limit' step step' body body'},
    S.idents counter counter' → S.nodes first first' → S.nodes limit limit' →
    Option.Rel S.nodes step step' → S.bodies body body' →
    S.nodes (.forLoop counter first limit step body (counter.span.through body.span))
      (.forLoop counter' first' limit' step' body' (counter'.span.through body'.span))
  whileLoop : ∀ {condition condition' body body'}, S.nodes condition condition' →
    S.bodies body body' →
    S.nodes (.whileLoop condition body (condition.span.through body.span))
      (.whileLoop condition' body' (condition'.span.through body'.span))
  repeatLoop : ∀ {count count' body body'}, S.nodes count count' → S.bodies body body' →
    S.nodes (.repeatLoop count body (count.span.through body.span))
      (.repeatLoop count' body' (count'.span.through body'.span))
  function : ∀ {name name' params params' body body'}, Option.Rel S.idents name name' →
    List.Forall₂ S.idents params params' → S.bodies body body' →
    S.nodes
      (.function name params body ((Grammar.functionStart name params body).through body.span))
      (.function name' params' body'
        ((Grammar.functionStart name' params' body').through body'.span))
  call : ∀ {callee callee' arguments arguments'}, S.nodes callee callee' →
    List.Forall₂ S.nodes arguments arguments' →
    S.nodes
      (.call callee arguments (callee.span.through (arguments.getLast?.getD callee).span))
      (.call callee' arguments' (callee'.span.through (arguments'.getLast?.getD callee').span))
  returnNothing : ∀ {here here'}, S.spans here here' →
    S.nodes (.returning none here) (.returning none here')
  returnValue : ∀ {here here' value value'}, S.spans here here' → S.nodes value value' →
    S.nodes (.returning (some value) (here.through value.span))
      (.returning (some value') (here'.through value'.span))
  continuing : ∀ {here here'}, S.spans here here' →
    S.nodes (.continuing here) (.continuing here')
  breaking : ∀ {here here'}, S.spans here here' → S.nodes (.breaking here) (.breaking here')
  inline : ∀ {statement statement'}, S.nodes statement statement' →
    S.bodies (.inline statement) (.inline statement')
  block : ∀ {here here' statements statements'}, S.spans here here' →
    List.Forall₂ S.nodes statements statements' →
    S.bodies (.block statements (Grammar.blockSpan here.start statements))
      (.block statements' (Grammar.blockSpan here'.start statements'))
  noBranch : S.branches .none .none
  otherwise : ∀ {body body'}, S.bodies body body' →
    S.branches (.otherwise body) (.otherwise body')
  elif : ∀ {condition condition' body body' others others'}, S.nodes condition condition' →
    S.bodies body body' → S.branches others others' →
    S.branches (.elif condition body others) (.elif condition' body' others')

variable {S} {α β : Type} {post : α → α → Prop} {post' : β → β → Prop} {n d e : Nat}

theorem current_eq (lawful : S.Lawful) {tokens tokens' : Tokens}
    (related : S.tokens tokens tokens') : tokens.current = tokens'.current := by
  cases related with
  | nil => rfl
  | cons first _ => exact lawful.token first

theorem peek_eq (lawful : S.Lawful) {tokens tokens' : Tokens}
    (related : S.tokens tokens tokens') : tokens.peek = tokens'.peek := by
  cases related with
  | nil => rfl
  | cons _ rest =>
    cases rest with
    | nil => rfl
    | cons second _ => exact lawful.token second

theorem spans_of_tokens (lawful : S.Lawful) {tokens tokens' : Tokens}
    (related : S.tokens tokens tokens') : S.spans tokens.span tokens'.span := by
  cases related with
  | nil => exact lawful.noSpan
  | cons first _ => exact lawful.span first

theorem step_related (lawful : S.Lawful) {tokens tokens' : Tokens}
    (related : S.tokens tokens tokens') :
    S.tokens tokens.step tokens'.step := by
  cases related with
  | nil => exact .nil
  | cons first rest =>
    simp only [Tokens.step, ← lawful.token first]
    split
    · exact .cons first rest
    · exact rest

theorem skipNewlines_related (lawful : S.Lawful) {tokens tokens' : Tokens}
    (related : S.tokens tokens tokens') :
    S.tokens tokens.skipNewlines tokens'.skipNewlines := by
  induction related with
  | nil => exact .nil
  | cons first rest ih =>
    simp only [Tokens.skipNewlines, ← lawful.token first]
    split
    · exact ih
    · exact .cons first rest

theorem Outcomes.weaken {length length' : Nat} {r r' : EStateM.Result ParseError Tokens α}
    (outcomes : S.Outcomes length d post r r') (longer : length + e ≤ length' + d)
    (grown : length ≤ length') : S.Outcomes length' e post r r' := by
  cases outcomes with
  | ok tokens passed results => exact .ok tokens (by omega) results
  | error tokens passed errors => exact .error tokens (by omega) errors

/-- Two parsers in step, of which the second starts where the first has left off. -/
theorem Outcomes.bind {length : Nat} {x x' : Parser α} {f f' : α → Parser β}
    {tokens tokens' : Tokens} (outcomes : S.Outcomes length d post (x tokens) (x' tokens'))
    (next : ∀ a a' left left', post a a' → S.tokens left left' → left.length + d ≤ length →
      S.Outcomes left.length 0 post' (f a left) (f' a' left')) :
    S.Outcomes length d post' ((x >>= f) tokens) ((x' >>= f') tokens') := by
  simp only [Parser.run_bind]
  generalize x tokens = result at outcomes ⊢
  generalize x' tokens' = result' at outcomes ⊢
  cases outcomes with
  -- The second parser is counted from where the first one stopped.
  | ok tokens passed results =>
    exact (next _ _ _ _ results tokens passed).weaken (by omega) (by omega)
  | error tokens passed errors => exact .error tokens passed errors

namespace Related

variable {x x' : Parser α} {f f' : α → Parser β}

theorem weaken (related : S.Related n d post x x') : S.Related n 0 post x x' :=
  fun tokens tokens' same bound =>
    (related tokens tokens' same bound).weaken (Nat.le_add_right _ _) (Nat.le_refl _)

theorem shorter {m : Nat} (related : S.Related n d post x x') (fewer : m ≤ n) :
    S.Related m d post x x' :=
  fun tokens tokens' same bound => related tokens tokens' same (Nat.le_trans bound fewer)

theorem relatedAt {token : Token} (related : S.Related n d post x x') :
    S.RelatedAt token n d post x x' :=
  fun tokens tokens' same _ bound => related tokens tokens' same bound

theorem pure {a a' : α} (results : post a a') :
    S.Related n 0 post (Pure.pure a) (Pure.pure a') :=
  fun _ _ same _ => .ok same (Nat.le_refl _) results

theorem bind (related : S.Related n d post x x')
    (next : ∀ a a', post a a' → S.Related n 0 post' (f a) (f' a')) :
    S.Related n d post' (x >>= f) (x' >>= f') :=
  fun tokens tokens' same bound =>
    (related tokens tokens' same bound).bind fun a a' left left' results same passed =>
      next a a' results left left' same (by omega)

/-- What comes behind a token that is passed has one token fewer before it. -/
theorem first (related : S.Related n 1 post x x')
    (next : ∀ a a', post a a' → S.Related (n - 1) 0 post' (f a) (f' a')) :
    S.Related n 1 post' (x >>= f) (x' >>= f') :=
  fun tokens tokens' same bound =>
    (related tokens tokens' same bound).bind fun a a' left left' results same passed =>
      next a a' results left left' same (by omega)

theorem map {g g' : α → β} (related : S.Related n d post x x')
    (results : ∀ a a', post a a' → post' (g a) (g' a')) :
    S.Related n d post' (g <$> x) (g' <$> x') := by
  rw [map_eq_pure_bind, map_eq_pure_bind]
  exact related.bind fun a a' same => .pure (results a a' same)

theorem discard (related : S.Related n d post x x') :
    S.Related n d (fun _ _ => True) (Functor.discard x) (Functor.discard x') :=
  related.map fun _ _ _ => trivial

/-- Both parsers look at the same current token. -/
theorem current (lawful : S.Lawful) {f f' : Token → Parser β}
    (next : ∀ token, S.RelatedAt token n d post' (f token) (f' token)) :
    S.Related n d post' (Parser.current >>= f) (Parser.current >>= f') := by
  intro tokens tokens' same bound
  rw [Parser.run_current, Parser.run_current, ← current_eq lawful same]
  exact next _ tokens tokens' same rfl bound

theorem span (lawful : S.Lawful) {f f' : Span → Parser β}
    (next : ∀ here here', S.spans here here' → S.Related n d post' (f here) (f' here')) :
    S.Related n d post' (Parser.span >>= f) (Parser.span >>= f') :=
  fun tokens tokens' same bound =>
    next _ _ (spans_of_tokens lawful same) tokens tokens' same bound

theorem atBlockStart (lawful : S.Lawful) {f f' : Bool → Parser β}
    (next : ∀ answer, S.Related n d post' (f answer) (f' answer)) :
    S.Related n d post' (Parser.atBlockStart >>= f) (Parser.atBlockStart >>= f') := by
  intro tokens tokens' same bound
  simp only [Parser.run_atBlockStart, Tokens.atBlockStart, ← current_eq lawful same]
  exact next _ tokens tokens' same bound

/-- Both parsers have as many tokens left. -/
theorem budget {f f' : Tokens → Parser β}
    (next : ∀ left left' : Tokens, left.length = left'.length →
      S.Related n d post' (f left) (f' left')) :
    S.Related n d post' (get >>= f) (get >>= f') :=
  fun tokens tokens' same bound =>
    next tokens tokens' (List.Forall₂.length_eq same) tokens tokens' same bound

theorem step (lawful : S.Lawful) {f f' : Unit → Parser β}
    (next : S.Related n 0 post' (f ()) (f' ())) :
    S.Related n 0 post' (Parser.step >>= f) (Parser.step >>= f') := by
  intro tokens tokens' same bound
  have shorter := tokens.length_step_le
  exact (next _ _ (step_related lawful same) (by omega)).weaken (by omega) (by omega)

theorem skipNewlines (lawful : S.Lawful) {f f' : Unit → Parser β}
    (next : S.Related n 0 post' (f ()) (f' ())) :
    S.Related n 0 post' (Parser.skipNewlines >>= f) (Parser.skipNewlines >>= f') := by
  intro tokens tokens' same bound
  have shorter := tokens.length_skipNewlines_le
  exact (next _ _ (skipNewlines_related lawful same) (by omega)).weaken (by omega) (by omega)

theorem unexpected (lawful : S.Lawful) (expected : List String) :
    S.Related n d post (Parser.unexpected expected) (Parser.unexpected expected) :=
  fun _ _ same _ => .error same (Nat.le_refl _) (lawful.unexpected expected same)

theorem expectedExpression (lawful : S.Lawful) :
    S.Related n d post (Parser.span >>= fun here => throw ⟨.expectedExpression, here⟩)
      (Parser.span >>= fun here => throw ⟨.expectedExpression, here⟩) :=
  fun _ _ same _ => .error same (Nat.le_refl _) (lawful.expectedExpression same)

theorem expect (lawful : S.Lawful) {token : Token} (more : token ≠ .endOfInput)
    (exact : ∀ value, token ≠ .float value) :
    S.Related n 1 S.spans (Parser.expect token) (Parser.expect token) := by
  intro tokens tokens' same bound
  have current := current_eq lawful same
  cases found : tokens.current.agrees token with
  | true =>
    -- Only a token other than the end of input is passed, and it is counted.
    have here : tokens.current = token := (Token.agrees_iff exact).mp found
    rw [Parser.run_expect found, Parser.run_expect (current ▸ found)]
    have length := Tokens.length_step (here ▸ more)
    exact .ok (step_related lawful same) (by omega) (spans_of_tokens lawful same)
  | false =>
    rw [Parser.run_expect_error found, Parser.run_expect_error (current ▸ found)]
    exact .error same (Nat.le_refl _) (lawful.unexpected _ same)

/-- A token that is expected is passed. -/
theorem pass (lawful : S.Lawful) {token : Token} {f f' : Unit → Parser β}
    (more : token ≠ .endOfInput) (exact : ∀ value, token ≠ .float value)
    (next : S.Related n 0 post' (f ()) (f' ())) :
    S.Related n 0 post' (Functor.discard (Parser.expect token) >>= f)
      (Functor.discard (Parser.expect token) >>= f') :=
  (expect lawful more exact).discard.weaken.bind fun _ _ _ => next

/-- A construct starts with a token of its own. -/
theorem opening (lawful : S.Lawful) {token : Token} {f f' : Unit → Parser β}
    (more : token ≠ .endOfInput) (exact : ∀ value, token ≠ .float value)
    (next : S.Related (n - 1) 0 post' (f ()) (f' ())) :
    S.Related n 1 post' (Functor.discard (Parser.expect token) >>= f)
      (Functor.discard (Parser.expect token) >>= f') :=
  (expect lawful more exact).discard.first fun _ _ _ => next

theorem demand (lawful : S.Lawful) {token : Token} {expected : List String}
    {f f' : Unit → Parser β} (next : S.Related n 0 post' (f ()) (f' ())) :
    S.Related n 0 post' (Parser.demand token expected >>= f)
      (Parser.demand token expected >>= f') := by
  have passed : S.Related n 0 (fun _ _ => True) (Parser.demand token expected)
      (Parser.demand token expected) := by
    refine current lawful fun found => relatedAt ?_
    split
    · exact step lawful (pure trivial)
    · exact unexpected lawful expected
  exact passed.bind fun _ _ _ => next

theorem skip (lawful : S.Lawful) {token : Token} {f f' : Unit → Parser β}
    (next : S.Related n 0 post' (f ()) (f' ())) :
    S.Related n 0 post' (Parser.skip token >>= f) (Parser.skip token >>= f') := by
  have passed : S.Related n 0 (fun _ _ => True) (Parser.skip token) (Parser.skip token) := by
    refine current lawful fun found => relatedAt ?_
    split
    · exact step lawful (pure trivial)
    · exact pure trivial
  exact passed.bind fun _ _ _ => next

theorem ident (lawful : S.Lawful) : S.Related n 1 S.idents Parser.ident Parser.ident := by
  intro tokens tokens' same bound
  have current := current_eq lawful same
  by_cases found : ∃ name, tokens.current = .ident name
  · obtain ⟨name, here⟩ := found
    rw [Parser.run_ident here, Parser.run_ident (current ▸ here)]
    have more : tokens.current ≠ .endOfInput := by simp [here]
    have length := Tokens.length_step more
    exact .ok (step_related lawful same) (by omega)
      (lawful.ident name (spans_of_tokens lawful same))
  · have missing : ∀ name, tokens.current ≠ .ident name := fun name here => found ⟨name, here⟩
    rw [Parser.run_ident_error missing, Parser.run_ident_error (current ▸ missing)]
    exact .error same (Nat.le_refl _) (lawful.expectedIdent same)

end Related

namespace RelatedAt

variable {token : Token} {x x' : Parser α} {f f' : α → Parser β}

theorem weaken (related : S.RelatedAt token n d post x x') : S.RelatedAt token n 0 post x x' :=
  fun tokens tokens' same here bound =>
    (related tokens tokens' same here bound).weaken (Nat.le_add_right _ _) (Nat.le_refl _)

theorem first (related : S.RelatedAt token n 1 post x x')
    (next : ∀ a a', post a a' → S.Related (n - 1) 0 post' (f a) (f' a')) :
    S.RelatedAt token n 1 post' (x >>= f) (x' >>= f') :=
  fun tokens tokens' same here bound =>
    (related tokens tokens' same here bound).bind fun a a' left left' results same passed =>
      next a a' results left left' same (by omega)

/-- The current token is passed. -/
theorem step (lawful : S.Lawful) {f f' : Unit → Parser β} (more : token ≠ .endOfInput)
    (next : S.Related (n - 1) 0 post' (f ()) (f' ())) :
    S.RelatedAt token n 1 post' (Parser.step >>= f) (Parser.step >>= f') := by
  intro tokens tokens' same here bound
  have length := Tokens.length_step (here ▸ more)
  exact (next _ _ (step_related lawful same) (by omega)).weaken (by omega) (by omega)

theorem span (lawful : S.Lawful) {f f' : Span → Parser β}
    (next : ∀ here here', S.spans here here' → S.RelatedAt token n d post' (f here) (f' here')) :
    S.RelatedAt token n d post' (Parser.span >>= f) (Parser.span >>= f') :=
  fun tokens tokens' same here bound =>
    next _ _ (spans_of_tokens lawful same) tokens tokens' same here bound

theorem current (lawful : S.Lawful) {f f' : Token → Parser β}
    (next : S.RelatedAt token n d post' (f token) (f' token)) :
    S.RelatedAt token n d post' (Parser.current >>= f) (Parser.current >>= f') := by
  intro tokens tokens' same here bound
  rw [Parser.run_current, Parser.run_current, ← current_eq lawful same, here]
  exact next tokens tokens' same here bound

theorem peek (lawful : S.Lawful) {f f' : Token → Parser β}
    (next : ∀ second, S.RelatedAt token n d post' (f second) (f' second)) :
    S.RelatedAt token n d post' (Parser.peek >>= f) (Parser.peek >>= f') := by
  intro tokens tokens' same here bound
  rw [Parser.run_peek, Parser.run_peek, ← peek_eq lawful same]
  exact next _ tokens tokens' same here bound

end RelatedAt

end Simulation

end Primer
