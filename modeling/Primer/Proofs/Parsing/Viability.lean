import Primer.Proofs.Parsing.Unbudgeted

/-!
# Viable prefixes

A parser that stops, with a result or an error, has looked at the tokens it has passed and at the one
it stops at, and at nothing behind that. And what it has passed can be completed: some tokens make it
succeed, whatever follows, as long as that starts with a token of a certain kind. Both properties pass
from parsers to the constructs made of them; where one parser follows another, some tokens have to
start the second from scratch, in case nothing of it has been seen yet.
-/

namespace Primer

variable {α β : Type}

/-- The result of a parser that leaves the given tokens. -/
def leaving (left : Tokens) : Except ParseError α → EStateM.Result ParseError Tokens α
  | .ok a => .ok a left
  | .error error => .error error left

/-- The parser takes up exactly the given tokens, whatever follows of the given kind. -/
def Completes (follow : Token → Prop) (x : Parser α) (tokens : Tokens) : Prop :=
  ∀ rest : Tokens, follow rest.current → ∃ a, x (tokens ++ rest) = .ok a rest

/-- A run of a parser: what it passes, what it leaves and how it ends. -/
structure Run (follow : Token → Prop) (d : Nat) (x : Parser α) (passed left : Tokens)
    (outcome : Except ParseError α) : Prop where
  proper : ∀ lexeme ∈ passed, lexeme.token ≠ .endOfInput
  /-- Only the first of the tokens left has been looked at. -/
  looks : ∀ left' : Tokens, left'.head? = left.head? → x (passed ++ left') = leaving left' outcome
  progress : ∀ a, outcome = .ok a → d ≤ passed.length
  completes : passed ≠ [] → ∃ missing, Completes follow x (passed ++ missing)

/-- What the parser passes of these tokens can be completed. -/
def ViableOn (follow : Token → Prop) (d : Nat) (x : Parser α) (tokens : Tokens) : Prop :=
  ∃ passed left outcome, tokens = passed ++ left ∧ Run follow d x passed left outcome

/-- The same for all lists of at most `n` tokens. -/
def Viable (follow : Token → Prop) (n d : Nat) (x : Parser α) : Prop :=
  ∀ tokens : Tokens, tokens.length ≤ n → ViableOn follow d x tokens

/-- The same for the lists that start with the given token. -/
def ViableAt (token : Token) (follow : Token → Prop) (n d : Nat) (x : Parser α) : Prop :=
  ∀ tokens : Tokens, tokens.current = token → tokens.length ≤ n → ViableOn follow d x tokens

variable {follow follow' : Token → Prop} {n d : Nat} {x : Parser α} {f : α → Parser β}
  {tokens : Tokens}

theorem Completes.bind {first second : Tokens} (completes : Completes follow x first)
    (leads : ∀ rest : Tokens, follow' rest.current → follow (second ++ rest).current)
    (next : ∀ a, Completes follow' (f a) second) :
    Completes follow' (x >>= f) (first ++ second) := by
  intro rest follows
  obtain ⟨a, parsed⟩ := completes (second ++ rest) (leads rest follows)
  obtain ⟨b, parsed'⟩ := next a rest follows
  exact ⟨b, by rw [List.append_assoc, Parser.run_bind, parsed]; exact parsed'⟩

theorem Completes.map {g : α → β} (completes : Completes follow x tokens) :
    Completes follow (g <$> x) tokens := by
  intro rest follows
  obtain ⟨a, parsed⟩ := completes rest follows
  refine ⟨g a, ?_⟩
  rw [map_eq_pure_bind, Parser.run_bind, parsed]
  rfl

theorem Completes.pass {token : Token} {f : Unit → Parser β} (more : token ≠ .endOfInput)
    (exact : ∀ value, token ≠ .float value) (next : Completes follow (f ()) tokens) :
    Completes follow (Functor.discard (Parser.expect token) >>= f)
      (⟨token, ⟨0, 0⟩⟩ :: tokens) := by
  have expects : Completes (fun _ => True) (Parser.expect token) [⟨token, ⟨0, 0⟩⟩] :=
    fun rest _ => ⟨⟨0, 0⟩, Parser.run_expect_cons rfl more exact rest⟩
  exact expects.map.bind (fun _ _ => trivial) fun _ => next

theorem Completes.mono (completes : Completes follow x tokens)
    (fewer : ∀ token, follow' token → follow token) : Completes follow' x tokens :=
  fun rest follows => completes rest (fewer _ follows)

private theorem head?_append {passed left left' : Tokens}
    (same : passed ≠ [] ∨ left'.head? = left.head?) :
    (passed ++ left').head? = (passed ++ left).head? := by
  cases passed with
  | nil => exact same.resolve_left (fun absent => absent rfl)
  | cons => rfl

theorem current_eq_of_head? {tokens tokens' : Tokens} (same : tokens'.head? = tokens.head?) :
    tokens'.current = tokens.current := by
  cases tokens <;> cases tokens' <;> simp_all [Tokens.current]

theorem span_eq_of_head? {tokens tokens' : Tokens} (same : tokens'.head? = tokens.head?) :
    tokens'.span = tokens.span := by
  cases tokens <;> cases tokens' <;> simp_all [Tokens.span]

/-- A parser that stops at once. -/
theorem ViableOn.stop (outcome : Except ParseError α) (ends : ∀ a, outcome = .ok a → d = 0)
    (looks : ∀ left : Tokens, left.head? = tokens.head? → x left = leaving left outcome) :
    ViableOn follow d x tokens :=
  ⟨[], tokens, outcome, rfl, nofun, looks, fun a ok => Nat.le_of_eq (ends a ok),
    fun some => absurd rfl some⟩

/-- What a parser does may depend on the first token. -/
theorem ViableOn.glance (chosen : Parser α)
    (same : ∀ left : Tokens, left.head? = tokens.head? → x left = chosen left)
    (viable : ViableOn follow d chosen tokens) : ViableOn follow d x tokens := by
  obtain ⟨passed, left, outcome, rfl, run⟩ := viable
  refine ⟨passed, left, outcome, rfl, run.proper, fun left' heads => ?_, run.progress,
    fun some => ?_⟩
  · rw [same _ (head?_append (.inr heads))]
    exact run.looks left' heads
  · obtain ⟨missing, completes⟩ := run.completes some
    refine ⟨missing, fun rest follows => ?_⟩
    rw [same _ (by rw [List.append_assoc]; exact head?_append (.inl some))]
    exact completes rest follows

/-- A parser and tokens that it takes up from scratch. -/
structure Startable (follow : Token → Prop) (n d : Nat) (scratch : Tokens) (x : Parser α) :
    Prop where
  viable : Viable follow n d x
  fresh : Completes follow x scratch

/-- One parser after another. If nothing of the second has been passed, it starts from scratch. -/
theorem ViableOn.bind {scratch : Tokens} (viable : ViableOn follow d x tokens)
    (leads : ∀ rest : Tokens, follow' rest.current → follow (scratch ++ rest).current)
    (next : ∀ a, Startable follow' (tokens.length - d) 0 scratch (f a)) :
    ViableOn follow' d (x >>= f) tokens := by
  obtain ⟨passed, left, outcome, rfl, run⟩ := viable
  -- Nothing of the second parser has been passed yet: complete the first, then start the second.
  have restart (some : passed ≠ []) : ∃ missing, Completes follow' (x >>= f) (passed ++ missing) := by
    obtain ⟨missing, completes⟩ := run.completes some
    refine ⟨missing ++ scratch, ?_⟩
    rw [← List.append_assoc]
    exact completes.bind leads fun a => (next a).fresh
  cases outcome with
  | error error =>
    refine ⟨passed, left, .error error, rfl, run.proper, fun left' heads => ?_, nofun, restart⟩
    rw [Parser.run_bind, run.looks left' heads]
    rfl
  | ok a =>
    have progress := run.progress a rfl
    have bound : left.length ≤ (passed ++ left).length - d := by
      rw [List.length_append]
      omega
    obtain ⟨passed', left, outcome, rfl, run'⟩ := (next a).viable left bound
    -- The first parser stops at the same token whether the second one has passed it or not.
    have goesOn {left' : Tokens} (heads : passed' ≠ [] ∨ left'.head? = left.head?) :
        (x >>= f) (passed ++ (passed' ++ left')) = f a (passed' ++ left') := by
      rw [Parser.run_bind, run.looks _ (head?_append heads)]
      rfl
    refine ⟨passed ++ passed', left, outcome, (List.append_assoc _ _ _).symm, ?_, ?_, ?_, ?_⟩
    · intro lexeme member
      exact (List.mem_append.mp member).elim (run.proper lexeme) (run'.proper lexeme)
    · intro left' heads
      rw [List.append_assoc, goesOn (.inr heads), run'.looks left' heads]
    · intro b _
      rw [List.length_append]
      omega
    -- The tokens that are missing are those of the parser that has begun last.
    · intro some
      by_cases nothing : passed' = []
      · subst nothing
        rw [List.append_nil] at some ⊢
        exact restart some
      · obtain ⟨missing, completes⟩ := run'.completes nothing
        refine ⟨missing, fun rest follows => ?_⟩
        obtain ⟨b, parsed⟩ := completes rest follows
        refine ⟨b, ?_⟩
        rw [List.append_assoc, List.append_assoc, goesOn (.inl nothing), ← List.append_assoc]
        exact parsed

/-- The parser passes some tokens whatever follows and goes on as another. -/
theorem ViableOn.through (front : Tokens) {rest scratch : Tokens} {y : Parser α} (some : front ≠ [])
    (proper : ∀ lexeme ∈ front, lexeme.token ≠ .endOfInput)
    (passes : ∀ left : Tokens, x (front ++ left) = y left)
    (starts : Startable follow rest.length 0 scratch y) :
    ViableOn follow 1 x (front ++ rest) := by
  obtain ⟨passed, left, outcome, rfl, run⟩ := starts.viable rest (Nat.le_refl _)
  refine ⟨front ++ passed, left, outcome, (List.append_assoc _ _ _).symm, ?_, ?_, ?_, ?_⟩
  · intro lexeme member
    exact (List.mem_append.mp member).elim (proper lexeme) (run.proper lexeme)
  · intro left' heads
    rw [List.append_assoc, passes, run.looks left' heads]
  · intro _ _
    rw [List.length_append]
    exact Nat.le_add_right_of_le (List.length_pos_iff.mpr some)
  · intro _
    by_cases nothing : passed = []
    -- The parser behind has not begun.
    · refine ⟨scratch, fun left follows => ?_⟩
      rw [nothing, List.append_nil, List.append_assoc, passes]
      exact starts.fresh left follows
    · obtain ⟨missing, completes⟩ := run.completes nothing
      refine ⟨missing, fun left follows => ?_⟩
      rw [List.append_assoc, List.append_assoc, passes, ← List.append_assoc]
      exact completes left follows

/-- The parser passes the first token and leaves the rest alone. -/
theorem ViableOn.pass {lexeme : Lexeme} {rest : Tokens} (a : α)
    (more : lexeme.token ≠ .endOfInput) (passes : ∀ left : Tokens, x (lexeme :: left) = .ok a left) :
    ViableOn follow 1 x (lexeme :: rest) :=
  ⟨[lexeme], rest, .ok a, rfl, by simpa using more, fun left _ => passes left,
    fun _ _ => Nat.le_refl _, fun _ => ⟨[], fun left _ => ⟨a, passes left⟩⟩⟩

theorem Tokens.eq_cons_of_current (more : tokens.current ≠ .endOfInput) :
    ∃ (lexeme : Lexeme) (rest : Tokens), tokens = lexeme :: rest ∧
      lexeme.token = tokens.current := by
  cases tokens with
  | nil => exact absurd rfl more
  | cons lexeme rest => exact ⟨lexeme, rest, rfl, rfl⟩

namespace Viable

theorem shorter {m : Nat} (viable : Viable follow n d x) (fewer : m ≤ n) : Viable follow m d x :=
  fun tokens bound => viable tokens (Nat.le_trans bound fewer)

theorem weaken (viable : Viable follow n d x) : Viable follow n 0 x := by
  intro tokens bound
  obtain ⟨passed, left, outcome, split, run⟩ := viable tokens bound
  exact ⟨passed, left, outcome, split, { run with progress := fun _ _ => Nat.zero_le _ }⟩

theorem mono (viable : Viable follow n d x) (fewer : ∀ token, follow' token → follow token) :
    Viable follow' n d x := by
  intro tokens bound
  obtain ⟨passed, left, outcome, split, run⟩ := viable tokens bound
  refine ⟨passed, left, outcome, split, { run with completes := fun some => ?_ }⟩
  obtain ⟨missing, completes⟩ := run.completes some
  exact ⟨missing, completes.mono fewer⟩

theorem viableAt {token : Token} (viable : Viable follow n d x) : ViableAt token follow n d x :=
  fun tokens _ bound => viable tokens bound

theorem pure (a : α) : Viable follow n 0 (Pure.pure a) :=
  fun _ _ => .stop (.ok a) (fun _ _ => rfl) fun _ _ => rfl

theorem unexpected (expected : List String) :
    Viable follow n d (Parser.unexpected expected : Parser α) := by
  intro tokens _
  refine .stop (.error (tokens.unexpected expected)) nofun fun left heads => ?_
  have same : left.unexpected expected = tokens.unexpected expected := by
    rw [Tokens.unexpected, current_eq_of_head? heads, span_eq_of_head? heads]
    rfl
  rw [Parser.run_unexpected, same]
  rfl

theorem current {f : Token → Parser β} (next : ∀ token, ViableAt token follow n d (f token)) :
    Viable follow n d (Parser.current >>= f) := by
  intro tokens bound
  refine .glance (f tokens.current) (fun left heads => ?_) (next _ tokens rfl bound)
  rw [Parser.run_current, current_eq_of_head? heads]

theorem span {f : Span → Parser β} (next : ∀ here, Viable follow n d (f here)) :
    Viable follow n d (Parser.span >>= f) := by
  intro tokens bound
  refine .glance (f tokens.span) (fun left heads => ?_) (next _ tokens bound)
  rw [Parser.run_span, span_eq_of_head? heads]

theorem atBlockStart {f : Bool → Parser β} (next : ∀ answer, Viable follow n d (f answer)) :
    Viable follow n d (Parser.atBlockStart >>= f) := by
  intro tokens bound
  refine .glance (f tokens.atBlockStart) (fun left heads => ?_) (next _ tokens bound)
  rw [Parser.run_atBlockStart, Tokens.atBlockStart, current_eq_of_head? heads, Tokens.atBlockStart]

/-- Without tokens a parser has one run. -/
theorem of_nil (outcome : Except ParseError α) (ends : ∀ a, outcome = .ok a → d = 0)
    (nil : x [] = leaving [] outcome) : Viable follow 0 d x := by
  intro tokens bound
  obtain rfl : tokens = [] := List.eq_nil_of_length_eq_zero (Nat.le_zero.mp bound)
  refine .stop outcome ends fun left heads => ?_
  rw [List.head?_eq_none_iff.mp heads]
  exact nil

end Viable

namespace ViableAt

variable {token : Token}

theorem weaken (viable : ViableAt token follow n d x) : ViableAt token follow n 0 x := by
  intro tokens here bound
  obtain ⟨passed, left, outcome, split, run⟩ := viable tokens here bound
  exact ⟨passed, left, outcome, split, { run with progress := fun _ _ => Nat.zero_le _ }⟩

theorem span {f : Span → Parser β} (next : ∀ here, ViableAt token follow n d (f here)) :
    ViableAt token follow n d (Parser.span >>= f) := by
  intro tokens here bound
  refine .glance (f tokens.span) (fun left heads => ?_) (next _ tokens here bound)
  rw [Parser.run_span, span_eq_of_head? heads]

theorem current {f : Token → Parser β} (next : ViableAt token follow n d (f token)) :
    ViableAt token follow n d (Parser.current >>= f) := by
  intro tokens here bound
  refine .glance (f token) (fun left heads => ?_) (next tokens here bound)
  rw [Parser.run_current, current_eq_of_head? heads, here]

theorem bind (viable : ViableAt token follow n d x) (scratch : Tokens)
    (leads : ∀ rest : Tokens, follow' rest.current → follow (scratch ++ rest).current)
    (next : ∀ a, Startable follow' (n - d) 0 scratch (f a)) :
    ViableAt token follow' n d (x >>= f) :=
  fun tokens here bound => (viable tokens here bound).bind leads fun a =>
    ⟨(next a).viable.shorter (Nat.sub_le_sub_right bound d), (next a).fresh⟩

/-- The current token is passed. -/
theorem step {f : Unit → Parser β} (scratch : Tokens) (more : token ≠ .endOfInput)
    (next : Startable follow (n - 1) 0 scratch (f ())) :
    ViableAt token follow n 1 (Parser.step >>= f) := by
  intro tokens here bound
  obtain ⟨lexeme, rest, rfl, found⟩ := Tokens.eq_cons_of_current (here ▸ more)
  have proper : lexeme.token ≠ .endOfInput := found ▸ here ▸ more
  have passes : ViableOn (fun _ => True) 1 Parser.step (lexeme :: rest) :=
    .pass () proper (Parser.run_step_cons proper)
  refine passes.bind (fun _ _ => trivial) fun _ => ⟨?_, next.fresh⟩
  exact next.viable.shorter (Nat.sub_le_sub_right bound 1)

theorem past {f : Unit → Parser β} (scratch : Tokens) (more : token ≠ .endOfInput)
    (next : Startable follow n 0 scratch (f ())) : ViableAt token follow n 0 (Parser.step >>= f) :=
  (step scratch more ⟨next.viable.shorter (Nat.sub_le _ _), next.fresh⟩).weaken

end ViableAt

namespace Startable

variable {scratch : Tokens}

theorem bind (starts : Startable follow n d scratch x) (second : Tokens)
    (leads : ∀ rest : Tokens, follow' rest.current → follow (second ++ rest).current)
    (next : ∀ a, Startable follow' (n - d) 0 second (f a)) :
    Startable follow' n d (scratch ++ second) (x >>= f) where
  viable tokens bound := (starts.viable tokens bound).bind leads fun a =>
    ⟨(next a).viable.shorter (Nat.sub_le_sub_right bound d), (next a).fresh⟩
  fresh := starts.fresh.bind leads fun a => (next a).fresh

theorem shorter {m : Nat} (starts : Startable follow n d scratch x) (fewer : m ≤ n) :
    Startable follow m d scratch x :=
  ⟨starts.viable.shorter fewer, starts.fresh⟩

theorem weaken (starts : Startable follow n d scratch x) : Startable follow n 0 scratch x :=
  ⟨starts.viable.weaken, starts.fresh⟩

theorem pure (a : α) : Startable follow n 0 [] (Pure.pure a) :=
  ⟨.pure a, fun _ _ => ⟨a, rfl⟩⟩

/-- The result is made of what the parser yields. -/
theorem returning {g : α → β} (starts : Startable follow n d scratch x) :
    Startable follow n d scratch (x >>= fun a => Pure.pure (g a)) := by
  have starts' : Startable follow n d (scratch ++ []) (x >>= fun a => Pure.pure (g a)) :=
    starts.bind [] (fun _ follows => follows) fun a => .pure (g a)
  rwa [List.append_nil] at starts'

theorem map {g : α → β} (starts : Startable follow n d scratch x) :
    Startable follow n d scratch (g <$> x) := by
  rw [map_eq_pure_bind]
  exact starts.returning

theorem expect {token : Token} (more : token ≠ .endOfInput)
    (exact : ∀ value, token ≠ .float value) :
    Startable (fun _ => True) n 1 [⟨token, ⟨0, 0⟩⟩] (Parser.expect token) where
  viable tokens _ := by
    by_cases here : tokens.current = token
    · obtain ⟨lexeme, rest, rfl, same⟩ := Tokens.eq_cons_of_current (here ▸ more)
      exact .pass lexeme.span (same ▸ here ▸ more)
        (Parser.run_expect_cons (same.trans here) more exact)
    -- Another token stands here, and the error quotes it and nothing behind it.
    · refine .stop (.error (tokens.unexpected ["`" ++ token.literal ++ "`"])) nofun
        fun left heads => ?_
      have missing : left.current.agrees token = false := by
        rw [current_eq_of_head? heads]
        exact Bool.eq_false_iff.mpr (mt (Token.agrees_iff exact).mp here)
      rw [Parser.run_expect_error missing, Tokens.unexpected, current_eq_of_head? heads,
        span_eq_of_head? heads]
      rfl
  fresh rest _ := ⟨⟨0, 0⟩, Parser.run_expect_cons rfl more exact rest⟩

/-- A construct that goes on behind a token of its own. -/
theorem opening {token : Token} {f : Unit → Parser β} (more : token ≠ .endOfInput)
    (exact : ∀ value, token ≠ .float value) (next : Startable follow (n - 1) 0 scratch (f ())) :
    Startable follow n 1 (⟨token, ⟨0, 0⟩⟩ :: scratch)
      (Functor.discard (Parser.expect token) >>= f) :=
  (expect more exact).map.bind scratch (fun _ _ => trivial) fun _ => next

theorem pass {token : Token} {f : Unit → Parser β} (more : token ≠ .endOfInput)
    (exact : ∀ value, token ≠ .float value) (next : Startable follow n 0 scratch (f ())) :
    Startable follow n 0 (⟨token, ⟨0, 0⟩⟩ :: scratch)
      (Functor.discard (Parser.expect token) >>= f) :=
  (opening more exact (next.shorter (Nat.sub_le _ _))).weaken

theorem ident : Startable (fun _ => True) n 1 [⟨.ident "x", ⟨0, 0⟩⟩] Parser.ident where
  viable tokens _ := by
    by_cases found : ∃ name, tokens.current = .ident name
    · obtain ⟨name, here⟩ := found
      have more : tokens.current ≠ .endOfInput := by simp [here]
      obtain ⟨lexeme, rest, rfl, same⟩ := Tokens.eq_cons_of_current more
      exact .pass ⟨name, lexeme.span⟩ (same ▸ more) (Parser.run_ident_cons (same.trans here))
    · refine .stop (.error ⟨.expectedIdent, tokens.span⟩) nofun fun left heads => ?_
      have missing : ∀ name, left.current ≠ .ident name := fun name here =>
        found ⟨name, current_eq_of_head? heads ▸ here⟩
      rw [Parser.run_ident_error missing, span_eq_of_head? heads]
      rfl
  fresh rest _ := ⟨_, Parser.run_ident_cons rfl rest⟩

theorem demand {token : Token} {expected : List String} {f : Unit → Parser β}
    (more : token ≠ .endOfInput) (next : Startable follow n 0 scratch (f ())) :
    Startable follow n 0 (⟨token, ⟨0, 0⟩⟩ :: scratch) (Parser.demand token expected >>= f) := by
  have starts : Startable (fun _ => True) n 0 [⟨token, ⟨0, 0⟩⟩]
      (Parser.demand token expected) := by
    refine ⟨.current fun found => ?_, fun rest _ => ⟨(), Parser.run_demand_cons rfl more rest⟩⟩
    split
    next here => exact ViableAt.past (f := Pure.pure) [] (here ▸ more) (.pure ())
    next => exact (Viable.unexpected expected).viableAt
  exact starts.bind scratch (fun _ _ => trivial) fun _ => next

/-- A token that may be left out. -/
theorem skip {token : Token} {f : Unit → Parser β} (more : token ≠ .endOfInput)
    (leads : ∀ rest : Tokens, follow rest.current → (scratch ++ rest).current ≠ token)
    (next : Startable follow n 0 scratch (f ())) :
    Startable follow n 0 scratch (Parser.skip token >>= f) := by
  have starts : Startable (· ≠ token) n 0 [] (Parser.skip token) := by
    refine ⟨.current fun found => ?_, fun _ different => ⟨(), Parser.run_skip_of_ne different⟩⟩
    split
    next here => exact ViableAt.past (f := Pure.pure) [] (here ▸ more) (.pure ())
    next => exact (Viable.pure ()).viableAt
  exact starts.bind scratch leads fun _ => next

theorem skipNewlines {f : Unit → Parser β}
    (leads : ∀ rest : Tokens, follow rest.current → (scratch ++ rest).current ≠ .newline)
    (next : Startable follow n 0 scratch (f ())) :
    Startable follow n 0 scratch (Parser.skipNewlines >>= f) := by
  have starts : Viable (· ≠ .newline) n 0 Parser.skipNewlines := by
    intro tokens _
    -- A run of newlines ends where the next token is another one, which is all that is looked at.
    obtain ⟨newlines, rest, rfl, all, stops⟩ := tokens.exists_newlines
    have skips {left : Tokens} (stops : left.current ≠ .newline) :
        Parser.skipNewlines (newlines ++ left) = .ok () left :=
      congrArg (EStateM.Result.ok ()) (Tokens.skipNewlines_append all stops)
    refine ⟨newlines, rest, .ok (), rfl, ?_, fun left heads => ?_, fun _ _ => Nat.zero_le _,
      fun _ => ⟨[], fun left different => ⟨(), ?_⟩⟩⟩
    · intro lexeme member
      rw [all lexeme member]
      exact nofun
    · exact skips (current_eq_of_head? heads ▸ stops)
    · rw [List.append_nil]
      exact skips different
  have fresh : Completes (· ≠ .newline) Parser.skipNewlines [] := fun _ different =>
    ⟨(), congrArg (EStateM.Result.ok ()) (Tokens.skipNewlines_of_ne different)⟩
  exact (Startable.mk starts fresh).bind scratch leads fun _ => next

end Startable

end Primer
