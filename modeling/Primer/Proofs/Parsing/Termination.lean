import Primer.Proofs.Parsing.Phrases
import Primer.Proofs.Parsing.Procedures
import Primer.Proofs.Parsing.Unbudgeted

/-!
# Parsing comes to an end

The procedures of `Procedure` call each other and loop without counting tokens. Here they are compared
with the parsers of the grammar, which always have a result.

## Main result

`parsing_ends`: on every list of tokens, with or without an end of input, the procedures come to an end
with the results of the parsers. An expression or a statement takes up at least one token, a block is
left at a token that ends it, and no end of input is ever passed.

## Proof strategy

The induction is on the number of tokens. `EndsBelow n d` says of a procedure and a parser that they agree
on all lists of fewer than `n` tokens, and that the parser passes `d` tokens if it succeeds. A construct
with a token of its own passes that first, so the expressions inside are asked about shorter lists only.
A construct without one, such as a statement or a body, is about the same list as the expression in it.
A turn of a loop passes a token before the next.
-/

namespace Primer

/-! ### Tokens passed -/

namespace Tokens

/-- The second list is left of the first when `d` tokens or more have been passed. An end of input is not
among them. -/
def Passes (d : Nat) (tokens left : Tokens) : Prop :=
  ∃ passed : Tokens, tokens = passed ++ left ∧ passed.Proper ∧ d ≤ passed.length

namespace Passes

variable {d e : Nat} {tokens between left : Tokens}

theorem refl (tokens : Tokens) : tokens.Passes 0 tokens :=
  ⟨[], rfl, nofun, Nat.le_refl 0⟩

theorem trans (first : tokens.Passes d between) (second : between.Passes e left) :
    tokens.Passes (d + e) left := by
  obtain ⟨passed, rfl, proper, enough⟩ := first
  obtain ⟨passed', rfl, proper', enough'⟩ := second
  refine ⟨passed ++ passed', (List.append_assoc _ _ _).symm, ?_, ?_⟩
  · exact List.forall_mem_append.mpr ⟨proper, proper'⟩
  · rw [List.length_append]
    omega

theorem weaken (passes : tokens.Passes d left) (fewer : e ≤ d) : tokens.Passes e left := by
  obtain ⟨passed, split, proper, enough⟩ := passes
  exact ⟨passed, split, proper, fewer.trans enough⟩

theorem length_le (passes : tokens.Passes d left) : left.length + d ≤ tokens.length := by
  obtain ⟨passed, rfl, -, enough⟩ := passes
  rw [List.length_append]
  omega

end Passes

theorem step_of_end {tokens : Tokens} (stops : tokens.current = .endOfInput) : tokens.step = tokens := by
  cases tokens with
  | nil => rfl
  | cons lexeme rest => exact if_pos stops

theorem passes_step_one {tokens : Tokens} (more : tokens.current ≠ .endOfInput) :
    tokens.Passes 1 tokens.step := by
  cases tokens with
  | nil => exact absurd rfl more
  | cons lexeme rest =>
    rw [step_cons more]
    exact ⟨[lexeme], rfl, List.forall_mem_singleton.mpr more, Nat.le_refl 1⟩

theorem passes_step (tokens : Tokens) : tokens.Passes 0 tokens.step := by
  by_cases stops : tokens.current = .endOfInput
  · rw [step_of_end stops]
    exact .refl tokens
  · exact (passes_step_one stops).weaken (Nat.zero_le 1)

/-- Steps pass one token each up to the first end of input, or up to the end of the list, and none
behind. -/
theorem iterate_step (k : Nat) (tokens : Tokens) :
    step^[k] tokens = tokens.drop (min k (tokens.findIdx (·.token = .endOfInput))) := by
  induction k generalizing tokens with
  | zero => simp
  | succ k ih =>
    rw [Function.iterate_succ_apply, ih]
    cases tokens with
    | nil => simp [step]
    | cons lexeme rest =>
      by_cases stops : lexeme.token = .endOfInput
      · simp [step, stops, List.findIdx_cons]
      · simp [step, stops, List.findIdx_cons, Nat.succ_min_succ]

end Tokens

/-- How far a parser has come: it has passed tokens, and `d` or more if it has succeeded. -/
inductive Advanced (d : Nat) (tokens : Tokens) {α : Type} :
    EStateM.Result ParseError Tokens α → Prop
  | ok {a : α} {left : Tokens} (passes : tokens.Passes d left) : Advanced d tokens (.ok a left)
  | error {error : ParseError} {left : Tokens} (passes : tokens.Passes 0 left) :
      Advanced d tokens (.error error left)

namespace Advanced

variable {α : Type} {d e : Nat} {tokens between : Tokens}
  {result : EStateM.Result ParseError Tokens α}

theorem weaken (advanced : Advanced d tokens result) (fewer : e ≤ d) : Advanced e tokens result := by
  cases advanced with
  | ok passes => exact .ok (passes.weaken fewer)
  | error passes => exact .error passes

/-- Tokens passed before count as well. -/
theorem behind (passes : tokens.Passes d between) (advanced : Advanced e between result) :
    Advanced (d + e) tokens result := by
  cases advanced with
  | ok later => exact .ok (passes.trans later)
  | error later => exact .error ((passes.trans later).weaken (Nat.zero_le _))

end Advanced

/-! ### Procedures on one list of tokens -/

namespace Attempt

variable {α β : Type} {tokens left : Tokens}

theorem result?_lift (x : Parser α) (tokens : Tokens) :
    (liftM x : Attempt α).result? tokens = some (x tokens) := by
  show (ofParser x tokens).map _ = _
  rw [ofParser]
  cases x tokens <;> rfl

theorem result?_bind_ok {x : Attempt α} {a : α} (ended : x.result? tokens = some (.ok a left))
    (f : α → Attempt β) : (x >>= f).result? tokens = (f a).result? left := by
  obtain ⟨⟨outcome, rest⟩, ran, same⟩ := Option.map_eq_some_iff.mp ended
  cases outcome with
  | error => cases same
  | ok =>
    cases same
    simp only [result?, bind, ExceptT.bind, ExceptT.mk, StateT.bind, Option.bind, ran,
      ExceptT.bindCont]

theorem result?_bind_error {x : Attempt α} {error : ParseError}
    (ended : x.result? tokens = some (.error error left)) (f : α → Attempt β) :
    (x >>= f).result? tokens = some (.error error left) := by
  obtain ⟨⟨outcome, rest⟩, ran, same⟩ := Option.map_eq_some_iff.mp ended
  cases outcome with
  | ok => cases same
  | error =>
    cases same
    simp only [result?, bind, ExceptT.bind, ExceptT.mk, StateT.bind, Option.bind, ran,
      ExceptT.bindCont]
    rfl

end Attempt

/-- On these tokens the procedure comes to an end with the result of the parser: calls nested to some
depth are enough for it, and so are more. The parser passes `d` tokens or more if it succeeds. -/
structure EndsOn (tokens : Tokens) (d : Nat) {α : Type} (procedure : Nat → Attempt α)
    (x : Parser α) : Prop where
  result : ∃ enough, ∀ calls ≥ enough, (procedure calls).result? tokens = some (x tokens)
  advanced : Advanced d tokens (x tokens)

/-- The same for all lists of fewer than `n` tokens. -/
def EndsBelow (n d : Nat) {α : Type} (procedure : Nat → Attempt α) (x : Parser α) : Prop :=
  ∀ tokens : Tokens, tokens.length < n → EndsOn tokens d procedure x

/-- The same for those that start with the given token. -/
def EndsAt (token : Token) (n d : Nat) {α : Type} (procedure : Nat → Attempt α) (x : Parser α) :
    Prop :=
  ∀ tokens : Tokens, tokens.current = token → tokens.length < n → EndsOn tokens d procedure x

variable {α β : Type} {n d e : Nat} {tokens : Tokens} {token : Token}
  {procedure : Nat → Attempt α} {x : Parser α} {f : Nat → α → Attempt β} {g : α → Parser β}

namespace EndsOn

theorem weaken (ends : EndsOn tokens d procedure x) (fewer : e ≤ d) : EndsOn tokens e procedure x :=
  ⟨ends.result, ends.advanced.weaken fewer⟩

theorem lift (advanced : Advanced d tokens (x tokens)) : EndsOn tokens d (fun _ => liftM x) x :=
  ⟨⟨0, fun _ _ => Attempt.result?_lift x tokens⟩, advanced⟩

/-- A call goes one deeper. -/
theorem unfold (ends : EndsOn tokens d (fun calls => procedure (calls + 1)) x) :
    EndsOn tokens d procedure x := by
  obtain ⟨enough, agrees⟩ := ends.result
  refine ⟨⟨enough + 1, fun calls more => ?_⟩, ends.advanced⟩
  obtain ⟨calls, rfl⟩ := Nat.exists_eq_add_of_le' (Nat.one_le_of_lt more)
  exact agrees calls (Nat.le_of_succ_le_succ more)

/-- One procedure behind another ends if it ends on what the first has left. -/
theorem bind (ends : EndsOn tokens d procedure x)
    (next : ∀ a left, tokens.Passes d left → EndsOn left e (fun calls => f calls a) (g a)) :
    EndsOn tokens (d + e) (fun calls => procedure calls >>= f calls) (x >>= g) := by
  obtain ⟨⟨enough, agrees⟩, advanced⟩ := ends
  cases ran : x tokens with
  | ok a left =>
    rw [ran] at agrees advanced
    cases advanced with
    | ok passes =>
      have later := next a left passes
      obtain ⟨enough', agrees'⟩ := later.result
      refine ⟨⟨max enough enough', fun calls more => ?_⟩, ?_⟩
      · rw [Attempt.result?_bind_ok (agrees calls (le_of_max_le_left more)),
          agrees' calls (le_of_max_le_right more), Parser.run_bind_ok ran]
      · rw [Parser.run_bind_ok ran]
        exact later.advanced.behind passes
  | error error left =>
    rw [ran] at agrees advanced
    cases advanced with
    | error passes =>
      refine ⟨⟨enough, fun calls more => ?_⟩, ?_⟩
      · rw [Attempt.result?_bind_error (agrees calls more), Parser.run_bind, ran]
      · rw [Parser.run_bind, ran]
        exact .error passes

/-- Looking at the tokens leaves them as they are. -/
theorem look {value : α} (looks : x tokens = .ok value tokens)
    (ends : EndsOn tokens d (fun calls => f calls value) (g value)) :
    EndsOn tokens d (fun calls => liftM x >>= f calls) (x >>= g) := by
  have seen : (liftM x : Attempt α).result? tokens = some (.ok value tokens) :=
    (Attempt.result?_lift x tokens).trans (congrArg some looks)
  obtain ⟨enough, agrees⟩ := ends.result
  refine ⟨⟨enough, fun calls more => ?_⟩, ?_⟩
  · rw [Attempt.result?_bind_ok seen, agrees calls more, Parser.run_bind_ok looks]
  · rw [Parser.run_bind_ok looks]
    exact ends.advanced

theorem ite {condition : Prop} [Decidable condition] {procedure' : Nat → Attempt α}
    {x' : Parser α} (yes : condition → EndsOn tokens d procedure x)
    (no : ¬ condition → EndsOn tokens d procedure' x') :
    EndsOn tokens d (fun calls => if condition then procedure calls else procedure' calls)
      (if condition then x else x') := by
  by_cases holds : condition
  · simpa only [if_pos holds] using yes holds
  · simpa only [if_neg holds] using no holds

end EndsOn

namespace EndsBelow

theorem weaken (ends : EndsBelow n d procedure x) : EndsBelow n 0 procedure x :=
  fun tokens bound => (ends tokens bound).weaken (Nat.zero_le d)

theorem shorter {m : Nat} (ends : EndsBelow n d procedure x) (fewer : m ≤ n) :
    EndsBelow m d procedure x :=
  fun tokens bound => ends tokens (bound.trans_le fewer)

theorem endsAt (ends : EndsBelow n d procedure x) : EndsAt token n d procedure x :=
  fun tokens _ bound => ends tokens bound

theorem lift (advanced : ∀ tokens, Advanced d tokens (x tokens)) :
    EndsBelow n d (fun _ => liftM x) x :=
  fun tokens _ => .lift (advanced tokens)

theorem unfold (ends : EndsBelow n d (fun calls => procedure (calls + 1)) x) :
    EndsBelow n d procedure x :=
  fun tokens bound => .unfold (ends tokens bound)

theorem pure (a : α) : EndsBelow n 0 (fun _ => Pure.pure a) (Pure.pure a) :=
  fun tokens _ => ⟨⟨0, fun _ _ => rfl⟩, .ok (.refl tokens)⟩

theorem throw (error : ParseError) :
    EndsBelow n d (fun _ => (MonadExcept.throw error : Attempt α)) (MonadExcept.throw error) :=
  fun tokens _ => ⟨⟨0, fun _ _ => rfl⟩, .error (.refl tokens)⟩

theorem bind (ends : EndsBelow n d procedure x)
    (next : ∀ a, EndsBelow n 0 (fun calls => f calls a) (g a)) :
    EndsBelow n d (fun calls => procedure calls >>= f calls) (x >>= g) := by
  intro tokens bound
  refine (ends tokens bound).bind fun a left passes => next a left ?_
  have shorter := passes.length_le
  omega

/-- Behind a token that is passed there is one fewer. -/
theorem first (ends : EndsBelow n 1 procedure x)
    (next : ∀ a, EndsBelow (n - 1) 0 (fun calls => f calls a) (g a)) :
    EndsBelow n 1 (fun calls => procedure calls >>= f calls) (x >>= g) := by
  intro tokens bound
  refine (ends tokens bound).bind fun a left passes => next a left ?_
  have shorter := passes.length_le
  omega

theorem map (ends : EndsBelow n d procedure x) (h : α → β) :
    EndsBelow n d (fun calls => h <$> procedure calls) (h <$> x) := by
  simp only [map_eq_pure_bind]
  exact ends.bind fun a => .pure (h a)

theorem ite {condition : Prop} [Decidable condition] {procedure' : Nat → Attempt α}
    {x' : Parser α} (yes : condition → EndsBelow n d procedure x)
    (no : ¬ condition → EndsBelow n d procedure' x') :
    EndsBelow n d (fun calls => if condition then procedure calls else procedure' calls)
      (if condition then x else x') :=
  fun tokens bound => .ite (fun holds => yes holds tokens bound) fun fails => no fails tokens bound

section Looking

theorem current {f : Nat → Token → Attempt β} {g : Token → Parser β}
    (next : ∀ token, EndsAt token n d (fun calls => f calls token) (g token)) :
    EndsBelow n d (fun calls => liftM Parser.current >>= f calls) (Parser.current >>= g) :=
  fun tokens bound => .look rfl (next tokens.current tokens rfl bound)

theorem span {f : Nat → Span → Attempt β} {g : Span → Parser β}
    (next : ∀ here, EndsBelow n d (fun calls => f calls here) (g here)) :
    EndsBelow n d (fun calls => liftM Parser.span >>= f calls) (Parser.span >>= g) :=
  fun tokens bound => .look rfl (next tokens.span tokens bound)

theorem atBlockStart {f : Nat → Bool → Attempt β} {g : Bool → Parser β}
    (next : ∀ answer, EndsBelow n d (fun calls => f calls answer) (g answer)) :
    EndsBelow n d (fun calls => liftM Parser.atBlockStart >>= f calls)
      (Parser.atBlockStart >>= g) :=
  fun tokens bound => .look rfl (next tokens.atBlockStart tokens bound)

end Looking

end EndsBelow

namespace EndsAt

theorem weaken (ends : EndsAt token n d procedure x) : EndsAt token n 0 procedure x :=
  fun tokens here bound => (ends tokens here bound).weaken (Nat.zero_le d)

theorem unfold (ends : EndsAt token n d (fun calls => procedure (calls + 1)) x) :
    EndsAt token n d procedure x :=
  fun tokens here bound => .unfold (ends tokens here bound)

theorem span {f : Nat → Span → Attempt β} {g : Span → Parser β}
    (next : ∀ here, EndsAt token n d (fun calls => f calls here) (g here)) :
    EndsAt token n d (fun calls => liftM Parser.span >>= f calls) (Parser.span >>= g) :=
  fun tokens here bound => .look rfl (next tokens.span tokens here bound)

theorem peek {f : Nat → Token → Attempt β} {g : Token → Parser β}
    (next : ∀ second, EndsAt token n d (fun calls => f calls second) (g second)) :
    EndsAt token n d (fun calls => liftM Parser.peek >>= f calls) (Parser.peek >>= g) :=
  fun tokens here bound => .look rfl (next tokens.peek tokens here bound)

theorem current {f : Nat → Token → Attempt β} {g : Token → Parser β}
    (next : EndsAt token n d (fun calls => f calls token) (g token)) :
    EndsAt token n d (fun calls => liftM Parser.current >>= f calls) (Parser.current >>= g) := by
  intro tokens here bound
  subst here
  exact .look rfl (next tokens rfl bound)

theorem first (ends : EndsAt token n 1 procedure x)
    (next : ∀ a, EndsBelow (n - 1) 0 (fun calls => f calls a) (g a)) :
    EndsAt token n 1 (fun calls => procedure calls >>= f calls) (x >>= g) := by
  intro tokens here bound
  refine (ends tokens here bound).bind fun a left passes => next a left ?_
  have shorter := passes.length_le
  omega

theorem ite {condition : Prop} [Decidable condition] {procedure' : Nat → Attempt α}
    {x' : Parser α} (yes : condition → EndsAt token n d procedure x)
    (no : ¬ condition → EndsAt token n d procedure' x') :
    EndsAt token n d (fun calls => if condition then procedure calls else procedure' calls)
      (if condition then x else x') :=
  fun tokens here bound =>
    .ite (fun holds => yes holds tokens here bound) fun fails => no fails tokens here bound

/-- The current token is passed. -/
theorem step {f : Nat → Unit → Attempt β} {g : Unit → Parser β} (more : token ≠ .endOfInput)
    (next : EndsBelow (n - 1) 0 (fun calls => f calls ()) (g ())) :
    EndsAt token n 1 (fun calls => liftM Parser.step >>= f calls) (Parser.step >>= g) := by
  have steps : EndsAt token n 1 (fun _ => liftM Parser.step) Parser.step := by
    rintro tokens rfl _
    exact .lift (.ok (Tokens.passes_step_one more))
  exact steps.first fun _ => next

end EndsAt

/-! ### Primitive parsers -/

namespace Parser

theorem advanced_step (tokens : Tokens) : Advanced 0 tokens (step tokens) :=
  .ok tokens.passes_step

theorem advanced_unexpected (expected : List String) (tokens : Tokens) :
    Advanced d tokens ((unexpected expected : Parser α) tokens) :=
  .error (.refl tokens)

theorem advanced_expect (more : token ≠ .endOfInput) (exact : ∀ value, token ≠ .float value)
    (tokens : Tokens) : Advanced 1 tokens (expect token tokens) := by
  cases found : tokens.current.agrees token with
  | true =>
    have here : tokens.current = token := (Token.agrees_iff exact).mp found
    rw [run_expect found]
    exact .ok (Tokens.passes_step_one (here ▸ more))
  | false =>
    rw [run_expect_error found]
    exact .error (.refl tokens)

theorem advanced_ident (tokens : Tokens) : Advanced 1 tokens (ident tokens) := by
  by_cases found : ∃ name, tokens.current = .ident name
  · obtain ⟨name, here⟩ := found
    rw [run_ident here]
    exact .ok (Tokens.passes_step_one (by simp [here]))
  · rw [run_ident_error fun name here => found ⟨name, here⟩]
    exact .error (.refl tokens)

theorem advanced_demand (token : Token) (expected : List String) (tokens : Tokens) :
    Advanced 0 tokens (demand token expected tokens) := by
  delta demand
  rw [run_current]
  split
  · exact advanced_step tokens
  · exact advanced_unexpected expected tokens

theorem advanced_skip (token : Token) (tokens : Tokens) :
    Advanced 0 tokens (skip token tokens) := by
  delta skip
  rw [run_current]
  split
  · exact advanced_step tokens
  · exact .ok (.refl tokens)

end Parser

namespace EndsBelow

theorem unexpected (expected : List String) :
    EndsBelow n d (fun _ => liftM (Parser.unexpected expected : Parser α))
      (Parser.unexpected expected) :=
  lift (Parser.advanced_unexpected expected)

theorem ident : EndsBelow n 1 (fun _ => liftM Parser.ident) Parser.ident :=
  lift Parser.advanced_ident

theorem expect (more : token ≠ .endOfInput) (exact : ∀ value, token ≠ .float value) :
    EndsBelow n 1 (fun _ => liftM (Parser.expect token)) (Parser.expect token) :=
  lift (Parser.advanced_expect more exact)

section Behind

variable {f : Nat → Unit → Attempt β} {g : Unit → Parser β}

theorem step (next : EndsBelow n 0 (fun calls => f calls ()) (g ())) :
    EndsBelow n 0 (fun calls => liftM Parser.step >>= f calls) (Parser.step >>= g) :=
  (lift Parser.advanced_step).bind fun _ => next

theorem demand {expected : List String}
    (next : EndsBelow n 0 (fun calls => f calls ()) (g ())) :
    EndsBelow n 0 (fun calls => liftM (Parser.demand token expected) >>= f calls)
      (Parser.demand token expected >>= g) :=
  (lift (Parser.advanced_demand token expected)).bind fun _ => next

theorem skip (next : EndsBelow n 0 (fun calls => f calls ()) (g ())) :
    EndsBelow n 0 (fun calls => liftM (Parser.skip token) >>= f calls)
      (Parser.skip token >>= g) :=
  (lift (Parser.advanced_skip token)).bind fun _ => next

/-- A construct starts with a token of its own. -/
theorem opening (more : token ≠ .endOfInput) (exact : ∀ value, token ≠ .float value)
    (next : EndsBelow (n - 1) 0 (fun calls => f calls ()) (g ())) :
    EndsBelow n 1 (fun calls => discard (liftM (Parser.expect token)) >>= f calls)
      (discard (Parser.expect token) >>= g) :=
  ((expect more exact).map fun _ => ()).first fun _ => next

theorem pass (more : token ≠ .endOfInput) (exact : ∀ value, token ≠ .float value)
    (next : EndsBelow n 0 (fun calls => f calls ()) (g ())) :
    EndsBelow n 0 (fun calls => discard (liftM (Parser.expect token)) >>= f calls)
      (discard (Parser.expect token) >>= g) :=
  ((expect more exact).map fun _ => ()).weaken.bind fun _ => next

end Behind

end EndsBelow

/-! ### Loops -/

/-- A loop ends if one turn of it ends where the next turns have fewer tokens. -/
theorem EndsBelow.loopOver {ι : Type} {procedure : ι → Nat → Attempt α} {x : ι → Parser α}
    (turn : ∀ m < n, (∀ i, EndsBelow m d (procedure i) (x i)) →
      ∀ i, EndsBelow (m + 1) d (procedure i) (x i)) (i : ι) :
    EndsBelow n d (procedure i) (x i) := by
  induction n generalizing i with
  | zero => exact fun _ bound => absurd bound (Nat.not_lt_zero _)
  | succ n ih =>
    apply turn n (Nat.lt_succ_self n)
    exact ih fun m fewer => turn m (Nat.lt_succ_of_lt fewer)

theorem EndsBelow.loop
    (turn : ∀ m < n, EndsBelow m d procedure x → EndsBelow (m + 1) d procedure x) :
    EndsBelow n d procedure x :=
  loopOver (fun m fewer others _ => turn m fewer (others ())) ()

theorem Parser.skipNewlines_eq : skipNewlines = (do
    if (← current) = .newline then
      step
      skipNewlines) := by
  funext tokens
  cases tokens with
  | nil => rfl
  | cons lexeme rest =>
    rw [run_current]
    by_cases newline : lexeme.token = .newline
    · have here : Tokens.current (lexeme :: rest) = .newline := newline
      have more : lexeme.token ≠ .endOfInput := by simp [newline]
      rw [if_pos here, run_bind_ok (run_step_cons more rest)]
      show EStateM.Result.ok () (Tokens.skipNewlines (lexeme :: rest)) = _
      rw [Tokens.skipNewlines, if_pos newline]
      rfl
    · have here : Tokens.current (lexeme :: rest) ≠ .newline := newline
      rw [if_neg here]
      exact congrArg (EStateM.Result.ok ()) (Tokens.skipNewlines_of_ne here)

namespace Procedure

theorem skipNewlines_ends : EndsBelow n 0 skipNewlines Parser.skipNewlines := by
  refine .loop fun m _ others => .unfold ?_
  rw [Parser.skipNewlines_eq]
  refine .current fun token => .ite (fun newline => ?_) fun _ => (EndsBelow.pure ()).endsAt
  apply EndsAt.weaken
  exact .step (by simp [newline]) others

theorem params_ends : EndsBelow n 0 params Grammar.allParams := by
  refine .loop fun m _ others => .unfold ?_
  rw [Grammar.allParams_eq]
  refine (EndsBelow.ident.first fun first => .current fun token => EndsBelow.endsAt ?_).weaken
  cases token with
  | comma => exact .step (others.bind fun idents => .pure _)
  | rightParen => exact .pure _
  | _ => exact .unexpected _

theorem functionParams_ends : EndsBelow n 0 functionParams Grammar.functionParams := by
  rw [Grammar.functionParams_eq]
  refine .unfold (.current fun token => EndsBelow.endsAt ?_)
  cases token with
  | ident => exact params_ends
  | _ => exact .pure _

theorem functionName_advanced (tokens : Tokens) :
    Advanced 0 tokens (Grammar.functionName tokens) := by
  delta Grammar.functionName
  rw [Parser.run_current]
  cases found : tokens.current with
  | ident name =>
    show Advanced 0 tokens ((Parser.ident >>= fun ident => pure (some ident)) tokens)
    rw [Parser.run_bind_ok (Parser.run_ident found)]
    exact .ok tokens.passes_step
  | _ => exact .ok (.refl tokens)

/-- Expressions come to an end on lists of fewer than `n` tokens. -/
def Inside (n : Nat) : Prop :=
  ∀ precedence, EndsBelow n 1 (expression precedence) (Grammar.expression precedence)

namespace Inside

theorem shorter {m : Nat} (inside : Inside n) (fewer : m ≤ n) : Inside m :=
  fun precedence => (inside precedence).shorter fewer

theorem statement (inside : Inside n) :
    EndsBelow n 1 Procedure.statement (Grammar.statement Grammar.expression) := by
  refine .unfold (.span fun here => .current fun token => ?_)
  have other : EndsAt token n 1 (Procedure.expression none) (Grammar.expression none) :=
    (inside none).endsAt
  cases token with
  | keyword word =>
    cases word with
    | returnWord =>
      refine .step nofun (.current fun token => EndsBelow.endsAt ?_)
      refine .ite (fun _ => .pure _) fun _ => ?_
      exact (inside.shorter (n.sub_le 1) none).weaken.bind fun value => .pure _
    | continueWord => exact .step nofun (.pure _)
    | breakWord => exact .step nofun (.pure _)
    | _ => exact other
  | _ => exact other

theorem statements (inside : Inside n) :
    EndsBelow n 0 Procedure.statements Grammar.allStatements := by
  refine .loop fun m fewer others => .unfold ?_
  rw [Grammar.allStatements_eq]
  refine .current fun token => EndsBelow.endsAt (.ite (fun _ => .pure _) fun _ => ?_)
  -- A statement passes a token, so the others are left with one fewer.
  refine ((inside.statement.shorter fewer).first fun first => .current fun token => ?_).weaken
  apply EndsBelow.endsAt
  cases token with
  | newline => exact skipNewlines_ends.bind fun _ => others.bind fun nodes => .pure _
  | _ => exact .ite (fun _ => .pure _) fun _ => .unexpected _

theorem block (inside : Inside n) :
    EndsBelow n 0 Procedure.block (Grammar.block Grammar.expression) := by
  rw [Grammar.block_eq]
  refine .unfold (.span fun here => skipNewlines_ends.bind fun _ => ?_)
  exact inside.statements.bind fun nodes => .pure _

theorem closedBlock (inside : Inside n) :
    EndsBelow n 0 Procedure.closedBlock (Grammar.closedBlock Grammar.expression) :=
  .unfold (inside.block.bind fun _ => .pass nofun nofun (.pure _))

theorem body (inside : Inside n) :
    EndsBelow n 0 Procedure.body (Grammar.body Grammar.expression) := by
  refine .unfold (.atBlockStart fun answer => .ite (fun _ => inside.closedBlock) fun _ => ?_)
  exact inside.statement.weaken.bind fun statement => .skip (.pure _)

theorem expressions (inside : Inside n) (closing : Token) :
    EndsBelow n 0 (Procedure.expressions closing) (Grammar.allExpressions closing) := by
  refine .loop fun m fewer others => .unfold ?_
  rw [Grammar.allExpressions_eq]
  refine (((inside none).shorter fewer).first fun first => .current fun token => ?_).weaken
  apply EndsBelow.endsAt
  refine .ite (fun _ => .step (others.bind fun result => .pure _)) fun _ => ?_
  exact .ite (fun _ => .span fun stop => .step (.pure _)) fun _ => .unexpected _

theorem expressionList (inside : Inside n) (closing : Token) :
    EndsBelow n 0 (Procedure.expressionList closing)
      (Grammar.expressionList Grammar.expression closing) := by
  rw [Grammar.expressionList_eq]
  refine .unfold (.current fun token => EndsBelow.endsAt ?_)
  exact .ite (fun _ => .span fun stop => .step (.pure _)) fun _ => inside.expressions closing

theorem list (inside : Inside n) :
    EndsBelow (n + 1) 1 Procedure.list (Grammar.list Grammar.expression) := by
  refine .unfold (.first (.expect nofun nofun) fun first => ?_)
  exact (inside.expressionList .rightBracket).bind fun elements => .pure _

theorem assignment (inside : Inside n) :
    EndsBelow (n + 1) 1 Procedure.assignment (Grammar.assignment Grammar.expression) := by
  refine .unfold (.first .ident fun target => .pass nofun nofun ?_)
  exact (inside none).weaken.bind fun value => .pure _

theorem unary (inside : Inside n) (more : token ≠ .endOfInput) :
    EndsAt token (n + 1) 1 Procedure.unary (Grammar.unary Grammar.expression) := by
  refine .unfold (.span fun here => .current (.step more ?_))
  exact (inside _).weaken.bind fun operand => .pure _

theorem binary (inside : Inside n) (more : token ≠ .endOfInput) (left : Node) :
    EndsAt token (n + 1) 1 (Procedure.binary left) (Grammar.binary Grammar.expression left) := by
  refine .unfold (.current (.step more ?_))
  exact (inside _).weaken.bind fun right => .pure _

theorem call (inside : Inside n) (callee : Node) :
    EndsBelow (n + 1) 1 (Procedure.call callee) (Grammar.call Grammar.expression callee) := by
  refine .unfold (.opening nofun nofun ?_)
  exact (inside.expressionList .rightParen).bind fun arguments => .pure _

theorem branchBody (inside : Inside n) (isBlock : Bool) :
    EndsBelow n 0 (Procedure.branchBody isBlock)
      (Grammar.branchBody Grammar.expression isBlock) := by
  refine .unfold (.ite (fun _ => ?_) fun _ => ?_)
  · rw [map_eq_pure_bind]
    exact inside.block.bind fun block => .pure _
  · rw [map_eq_pure_bind]
    exact inside.statement.weaken.bind fun statement => .pure _

theorem branches (inside : Inside n) : EndsBelow n 0 Procedure.branches Grammar.allBranches := by
  refine .loop fun m fewer others => .unfold ?_
  have behind : Inside m := inside.shorter fewer.le
  rw [Grammar.allBranches_eq]
  apply EndsBelow.weaken
  refine ((inside none).shorter fewer).first fun condition => .pass nofun nofun ?_
  refine .atBlockStart fun isBlock => (behind.branchBody isBlock).bind fun first => ?_
  refine .current fun token => EndsBelow.endsAt ?_
  cases token with
  | keyword word =>
    cases word with
    | endWord => exact .step (.pure _)
    | elifWord => exact .step (others.bind fun result => .pure _)
    | elseWord => exact .step (behind.body.bind fun body => .pure _)
    | _ => exact .ite (fun _ => .unexpected _) fun _ => .pure _
  | _ => exact .ite (fun _ => .unexpected _) fun _ => .pure _

theorem conditional (inside : Inside n) :
    EndsBelow (n + 1) 1 Procedure.conditional (Grammar.conditional Grammar.expression) := by
  rw [Grammar.conditional_eq]
  exact .unfold (.opening nofun nofun (inside.branches.bind fun result => .pure _))

theorem loopStep (inside : Inside n) :
    EndsBelow n 0 Procedure.loopStep (Grammar.loopStep Grammar.expression) := by
  refine .unfold (.current fun token => EndsBelow.endsAt (.ite (fun _ => ?_) fun _ => .pure _))
  exact .step ((inside none).weaken.bind fun step => .pure _)

theorem forLoop (inside : Inside n) :
    EndsBelow (n + 1) 1 Procedure.forLoop (Grammar.forLoop Grammar.expression) := by
  refine .unfold (.opening nofun nofun ?_)
  refine EndsBelow.ident.weaken.bind fun counter => .pass nofun nofun ?_
  refine (inside none).weaken.bind fun first => .pass nofun nofun ?_
  refine (inside none).weaken.bind fun limit => inside.loopStep.bind fun step => ?_
  exact .pass nofun nofun (inside.body.bind fun body => .pure _)

theorem whileLoop (inside : Inside n) :
    EndsBelow (n + 1) 1 Procedure.whileLoop (Grammar.whileLoop Grammar.expression) := by
  refine .unfold (.opening nofun nofun ((inside none).weaken.bind fun condition => ?_))
  exact .pass nofun nofun (inside.body.bind fun body => .pure _)

theorem repeatLoop (inside : Inside n) :
    EndsBelow (n + 1) 1 Procedure.repeatLoop (Grammar.repeatLoop Grammar.expression) := by
  refine .unfold (.opening nofun nofun ((inside none).weaken.bind fun count => ?_))
  exact .pass nofun nofun (.skip (inside.body.bind fun body => .pure _))

theorem functionBody (inside : Inside n) :
    EndsBelow n 0 Procedure.functionBody (Grammar.functionBody Grammar.expression) := by
  refine .unfold (.current fun token => EndsBelow.endsAt ?_)
  cases token with
  | arrow => exact .step ((inside none).weaken.bind fun value => .pure _)
  | newline => exact inside.closedBlock
  | keyword word =>
    cases word with
    | thenWord => exact .step inside.closedBlock
    | _ => exact .unexpected _
  | _ => exact .unexpected _

theorem function (inside : Inside n) :
    EndsBelow (n + 1) 1 Procedure.function (Grammar.function Grammar.expression) := by
  refine .unfold (.opening nofun nofun ?_)
  refine (EndsBelow.lift functionName_advanced).bind fun name => .demand ?_
  refine functionParams_ends.bind fun params => .demand ?_
  exact inside.functionBody.bind fun body => .pure _

theorem primary (inside : Inside n) (precedence : Option Precedence) :
    EndsBelow (n + 1) 1 (Procedure.primary precedence)
      (Grammar.primary Grammar.expression precedence) := by
  refine .unfold (.span fun here => .current fun token => ?_)
  cases token with
  | int value => exact .step nofun (.pure _)
  | float value => exact .step nofun (.pure _)
  | string value => exact .step nofun (.pure _)
  | ident name =>
    refine .peek fun second => .ite (fun _ => inside.assignment.endsAt) fun _ => ?_
    exact (EndsBelow.ident.bind fun ident => .pure _).endsAt
  | leftParen =>
    refine .step nofun ((inside none).weaken.bind fun node => ?_)
    exact .pass nofun nofun (.pure node)
  | leftBracket => exact inside.list.endsAt
  | plus => exact inside.unary nofun
  | minus => exact inside.unary nofun
  | keyword word =>
    cases word with
    | notWord => exact inside.unary nofun
    | ifWord => exact inside.conditional.endsAt
    | forWord => exact inside.forLoop.endsAt
    | whileWord => exact inside.whileLoop.endsAt
    | repeatWord => exact inside.repeatLoop.endsAt
    | funWord => exact inside.function.endsAt
    | _ => exact (EndsBelow.throw _).endsAt
  | _ => exact (EndsBelow.throw _).endsAt

theorem continuation (inside : Inside n) (precedence : Precedence) (left : Node) :
    EndsBelow n 0 (Procedure.continuation precedence left)
      (Grammar.allContinuation precedence left) := by
  refine .loopOver (fun m fewer others left => .unfold ?_) left
  have behind : Inside m := inside.shorter fewer.le
  rw [Grammar.allContinuation_eq]
  refine .current fun token => .ite (fun looser => ?_) fun _ => (EndsBelow.pure left).endsAt
  -- No operator of the language stands at the end of the input.
  have more : token ≠ .endOfInput := by
    rintro rfl
    cases precedence <;> exact absurd looser (by decide)
  apply EndsAt.weaken
  have operation := EndsAt.ite (fun _ : token = .leftParen => (behind.call left).endsAt)
    fun _ => behind.binary more left
  exact operation.first others

/-- A list of one token more. -/
theorem succ (inside : Inside n) : Inside (n + 1) := by
  intro precedence
  rw [Grammar.expression_eq]
  exact .unfold ((inside.primary precedence).first (inside.continuation _))

end Inside

theorem inside (n : Nat) : Inside n := by
  induction n with
  | zero => exact fun _ _ bound => absurd bound (Nat.not_lt_zero _)
  | succ n ih => exact ih.succ

theorem statement_ends : EndsBelow n 1 statement (Grammar.complete Grammar.statement) := by
  rw [Grammar.complete_statement_eq]
  exact (inside n).statement

theorem block_ends : EndsBelow n 0 block (Grammar.complete Grammar.block) := by
  rw [Grammar.complete_block_eq]
  exact (inside n).block

theorem program_ends : EndsBelow n 0 program Grammar.program := by
  refine .unfold (block_ends.bind fun block => .current fun token => EndsBelow.endsAt ?_)
  exact .ite (fun _ => .pure block) fun _ => .unexpected _

end Procedure

/-! ### Where a block ends -/

namespace Grammar

/-- A statement of a block that succeeds leaves fewer tokens. -/
theorem passes_of_statement {tokens left : Tokens} {node : Node}
    (parsed : statement expression tokens = .ok node left) : tokens.Passes 1 left := by
  have ends := (Procedure.inside _).statement tokens (Nat.lt_succ_self _)
  have advanced := ends.advanced
  rw [parsed] at advanced
  cases advanced with
  | ok passes => exact passes

/-- Behind a statement there are other lines, or the block ends. -/
theorem statementEnd_cases {others : Parser (List Node)} {first : Node} {tokens left : Tokens}
    {nodes : List Node} (parsed : statementEnd others first tokens = .ok nodes left) :
    (∃ lines, others tokens.skipNewlines = .ok lines left) ∨
      left = tokens ∧ tokens.current.isBlockEnd = true := by
  delta statementEnd at parsed
  rw [Parser.run_current] at parsed
  cases found : tokens.current with
  | newline =>
    rw [found] at parsed
    have parsed : (others >>= fun lines => pure (first :: lines)) tokens.skipNewlines
        = .ok nodes left := parsed
    obtain ⟨lines, _, behind, result⟩ := Parser.run_bind_eq_ok.mp parsed
    cases result
    exact .inl ⟨lines, behind⟩
  | endOfInput =>
    rw [found] at parsed
    cases parsed
    exact .inr ⟨rfl, rfl⟩
  | keyword word =>
    rw [found] at parsed
    cases word with
    | endWord | elifWord | elseWord =>
      cases parsed
      exact .inr ⟨rfl, rfl⟩
    | _ => cases parsed
  | _ =>
    rw [found] at parsed
    cases parsed

theorem isBlockEnd_of_allStatements {tokens left : Tokens} {nodes : List Node}
    (parsed : allStatements tokens = .ok nodes left) : left.current.isBlockEnd = true := by
  induction length : tokens.length using Nat.strong_induction_on generalizing tokens nodes with
  | _ length ih =>
    subst length
    rw [allStatements_eq] at parsed
    delta statementsOver at parsed
    rw [Parser.run_current] at parsed
    split at parsed
    next closes =>
      cases parsed
      exact closes
    next =>
      obtain ⟨first, next, ran, parsed⟩ := Parser.run_bind_eq_ok.mp parsed
      rcases statementEnd_cases parsed with ⟨lines, behind⟩ | ⟨rfl, closes⟩
      · -- The statement has passed a token, and newlines only make the list shorter.
        have passed := (passes_of_statement ran).length_le
        have fewer := next.length_skipNewlines_le
        exact ih _ (by omega) behind rfl
      · exact closes

/-- A block is left at `end`, `elif`, `else` or the end of input. -/
theorem mem_of_block {tokens left : Tokens} {block : Block}
    (parsed : complete Grammar.block tokens = .ok block left) :
    left.current ∈
      [.keyword .endWord, .keyword .elifWord, .keyword .elseWord, .endOfInput] := by
  rw [complete_block_eq, block_eq, Parser.run_span, Parser.run_skipNewlines] at parsed
  obtain ⟨nodes, _, statements, result⟩ := Parser.run_bind_eq_ok.mp parsed
  cases result
  have closes := isBlockEnd_of_allStatements statements
  cases found : left.current with
  | keyword word => cases word <;> simp_all [Token.isBlockEnd]
  | _ => simp_all [Token.isBlockEnd]

end Grammar

/-! ### Every list of tokens -/

/-- What parsing comes to on some tokens. -/
structure ParsingEnds (tokens : Tokens) : Prop where
  program : EndsOn tokens 0 Procedure.program Grammar.program
  block : EndsOn tokens 0 Procedure.block (Grammar.complete Grammar.block)
  statement : EndsOn tokens 1 Procedure.statement (Grammar.complete Grammar.statement)
  expression (precedence : Option Precedence) :
    EndsOn tokens 1 (Procedure.expression precedence) (Grammar.expression precedence)
  -- The loops inside them.
  newlines : EndsOn tokens 0 Procedure.skipNewlines Parser.skipNewlines
  statements : EndsOn tokens 0 Procedure.statements Grammar.allStatements
  expressions (closing : Token) :
    EndsOn tokens 0 (Procedure.expressions closing) (Grammar.allExpressions closing)
  branches : EndsOn tokens 0 Procedure.branches Grammar.allBranches
  params : EndsOn tokens 0 Procedure.params Grammar.allParams
  continuation (precedence : Precedence) (left : Node) :
    EndsOn tokens 0 (Procedure.continuation precedence left)
      (Grammar.allContinuation precedence left)
  /-- A block is left at a token that ends it. -/
  closed (block : Block) (left : Tokens) :
    Grammar.complete Grammar.block tokens = .ok block left →
      left.current ∈
        [.keyword .endWord, .keyword .elifWord, .keyword .elseWord, .endOfInput]
  /-- However many steps are made, they come to rest at the first end of input. -/
  steps (k : Nat) :
    Tokens.step^[k] tokens = tokens.drop (min k (tokens.findIdx (·.token = .endOfInput)))
  /-- At an end of input, or with no token left, the parser stays where it is. -/
  rests : tokens.current = .endOfInput →
    Parser.step tokens = .ok () tokens ∧ Parser.next tokens = .ok tokens.head? tokens

/-- **Parsing comes to an end.** On every list of tokens calls nested to some depth are enough for the
procedures, and their results are those of the parsers. -/
theorem parsing_ends (tokens : Tokens) : ParsingEnds tokens := by
  have bound : tokens.length < tokens.length + 1 := Nat.lt_succ_self _
  have inside := Procedure.inside (tokens.length + 1)
  exact {
    program := Procedure.program_ends tokens bound
    block := Procedure.block_ends tokens bound
    statement := Procedure.statement_ends tokens bound
    expression := fun precedence => inside precedence tokens bound
    newlines := Procedure.skipNewlines_ends tokens bound
    statements := inside.statements tokens bound
    expressions := fun closing => inside.expressions closing tokens bound
    branches := inside.branches tokens bound
    params := Procedure.params_ends tokens bound
    continuation := fun precedence left => inside.continuation precedence left tokens bound
    closed := fun _ _ => Grammar.mem_of_block
    steps := fun k => tokens.iterate_step k
    rests := by
      intro stops
      have still := Tokens.step_of_end stops
      constructor
      · exact congrArg (EStateM.Result.ok ()) still
      · exact congrArg (EStateM.Result.ok tokens.head?) still }

end Primer
