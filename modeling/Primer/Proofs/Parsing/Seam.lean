import Primer.Proofs.Lexing.Joining
import Primer.Proofs.Parsing.Completion

/-!
# Parsing up to a seam

Two lists of tokens have the same tokens up to a seam, those of the second further down in the source.
Behind the seam the first list ends, but for newlines, and the second ends there too or goes on with a
newline. What a parser makes of the first list without passing the seam it makes of the second as well,
moved along: parsers look at the seam, but none of them asks whether a newline stands there or the end
of input. `Carries n d` concerns lists of fewer than `n` tokens, of which at least `d` are passed.
-/

namespace Primer

/-- The tokens at which a source may go on. -/
def Token.Stops (token : Token) : Prop :=
  token = .newline ∨ token = .endOfInput

theorem Token.Stops.ne {token other : Token} (stops : token.Stops) (proper : other.Proper) :
    token ≠ other := by
  rintro rfl
  exact stops.elim proper.1 proper.2

theorem Token.Stops.closes {token : Token} (stops : token.Stops) : token.Closes := by
  rcases stops with rfl | rfl <;> exact trivial

/-- Where the common tokens of two lists end. -/
structure Seam where
  /-- How far the second list is moved. -/
  offset : Nat
  before : Tokens
  after : Tokens
  before_stops : before.current.Stops
  after_stops : after.current.Stops
  /-- Nothing but newlines stands behind the seam of the first list. -/
  ends : before.skipNewlines.current = .endOfInput

namespace Seam

variable (S : Seam)

/-- Lists with the same tokens up to the seam. -/
inductive Matches : Tokens → Tokens → Prop
  | seam : Matches S.before S.after
  | cons {lexeme : Lexeme} {rest rest' : Tokens} (more : lexeme.token ≠ .endOfInput)
      (behind : Matches rest rest') : Matches (lexeme :: rest) (lexeme.shift S.offset :: rest')

variable {α β : Type} {n d : Nat} {g : α → α} {h : β → β}

/-- Of `length` tokens the first parser has passed at least `d`, and the second as many, with the same
result up to `g`. -/
def Leads (length d : Nat) (g : α → α) (result result' : EStateM.Result ParseError Tokens α) : Prop :=
  ∀ a left, result = .ok a left →
    ∃ left', result' = .ok (g a) left' ∧ S.Matches left left' ∧ left.length + d ≤ length

def Carries (n d : Nat) (g : α → α) (x x' : Parser α) : Prop :=
  ∀ tokens tokens', S.Matches tokens tokens' → tokens.length < n →
    S.Leads tokens.length d g (x tokens) (x' tokens')

/-- The same for lists that start with the given token, before the seam. -/
def CarriesAt (token : Token) (n d : Nat) (g : α → α) (x x' : Parser α) : Prop :=
  ∀ lexeme rest rest', lexeme.token = token → token ≠ .endOfInput → S.Matches rest rest' →
    rest.length + 1 < n →
      S.Leads (rest.length + 1) d g (x (lexeme :: rest)) (x' (lexeme.shift S.offset :: rest'))

/-- The same at the seam. -/
def CarriesOver (d : Nat) (g : α → α) (x x' : Parser α) : Prop :=
  S.Leads S.before.length d g (x S.before) (x' S.after)

/-- The same where the first parser does not stop at the end of its list. -/
def CarriesInside (n : Nat) (g : α → α) (x x' : Parser α) : Prop :=
  ∀ tokens tokens', S.Matches tokens tokens' → tokens.length < n →
    ∀ a left, x tokens = .ok a left → left.current ≠ .endOfInput →
      ∃ left', x' tokens' = .ok (g a) left' ∧ S.Matches left left' ∧ left.length ≤ tokens.length

variable {S} {x x' : Parser α} {f f' : α → Parser β}

theorem Leads.error {length : Nat} {error : ParseError} {left : Tokens}
    {result : EStateM.Result ParseError Tokens α} : S.Leads length d g (.error error left) result := by
  intro a left ok
  cases ok

theorem Leads.bind {length : Nat} {tokens tokens' : Tokens}
    (leads : S.Leads length d g (x tokens) (x' tokens'))
    (next : ∀ a left left', S.Matches left left' → left.length + d ≤ length →
      S.Leads left.length 0 h (f a left) (f' (g a) left')) :
    S.Leads length d h ((x >>= f) tokens) ((x' >>= f') tokens') := by
  intro b last ok
  obtain ⟨a, left, first, second⟩ := Parser.run_bind_eq_ok.mp ok
  obtain ⟨left', first', behind, passed⟩ := leads a left first
  obtain ⟨last', second', matched, passed'⟩ := next a left left' behind passed b last second
  exact ⟨last', Parser.run_bind_eq_ok.mpr ⟨_, _, first', second'⟩, matched, by omega⟩

theorem CarriesOver.error (fails : ∃ error left, x S.before = .error error left) :
    S.CarriesOver d g x x' := by
  obtain ⟨error, left, fails⟩ := fails
  rw [CarriesOver, fails]
  exact .error

theorem CarriesOver.pure {a a' : α} (moved : a' = g a) :
    S.CarriesOver 0 g (Pure.pure a) (Pure.pure a') := by
  intro b left ok
  cases ok
  exact ⟨S.after, by rw [moved]; rfl, .seam, Nat.le_refl _⟩

namespace Carries

theorem zero : S.Carries 0 d g x x' := by
  intro tokens tokens' _ bound
  exact absurd bound (Nat.not_lt_zero _)

theorem carriesAt {token : Token} (carries : S.Carries n d g x x') : S.CarriesAt token n d g x x' := by
  intro lexeme rest rest' here more behind bound
  exact carries _ _ (.cons (here ▸ more) behind) bound

theorem carriesOver (carries : S.Carries n d g x x') (bound : S.before.length < n) :
    S.CarriesOver d g x x' :=
  carries _ _ .seam bound

theorem weaken (carries : S.Carries n d g x x') : S.Carries n 0 g x x' := by
  intro tokens tokens' matched bound a left ok
  obtain ⟨left', ok', behind, passed⟩ := carries tokens tokens' matched bound a left ok
  exact ⟨left', ok', behind, by omega⟩

theorem shorter {m : Nat} (carries : S.Carries n d g x x') (fewer : m ≤ n) :
    S.Carries m d g x x' :=
  fun tokens tokens' matched bound => carries tokens tokens' matched (by omega)

theorem pure {a a' : α} (moved : a' = g a) : S.Carries n 0 g (Pure.pure a) (Pure.pure a') := by
  intro tokens tokens' matched _ b left ok
  cases ok
  exact ⟨tokens', by rw [moved]; rfl, matched, Nat.le_refl _⟩

/-- What comes behind the tokens that are passed for certain has fewer before it. -/
theorem bind (carries : S.Carries n d g x x')
    (next : ∀ a, S.Carries (n - d) 0 h (f a) (f' (g a))) :
    S.Carries n d h (x >>= f) (x' >>= f') := by
  intro tokens tokens' matched bound
  refine (carries tokens tokens' matched bound).bind fun a left left' behind passed => ?_
  exact next a left left' behind (by omega)

theorem map {k k' : α → β} (carries : S.Carries n d g x x')
    (moved : ∀ a, k' (g a) = h (k a)) : S.Carries n d h (k <$> x) (k' <$> x') := by
  rw [map_eq_pure_bind, map_eq_pure_bind]
  exact carries.bind fun a => .pure (moved a)

/-- The current token is the same up to the seam. -/
theorem current {f f' : Token → Parser β}
    (inside : ∀ token, S.CarriesAt token n d h (f token) (f' token))
    (seam : ∀ token token', token.Stops → token'.Stops → S.before.length < n →
      S.CarriesOver d h (f token) (f' token')) :
    S.Carries n d h (Parser.current >>= f) (Parser.current >>= f') := by
  intro tokens tokens' matched bound
  rw [Parser.run_current, Parser.run_current]
  cases matched with
  | seam => exact seam _ _ S.before_stops S.after_stops bound
  | cons more behind => exact inside _ _ _ _ rfl more behind bound

/-- The place of the current token, which nobody asks for at the seam. -/
theorem here {f f' : Span → Token → Parser β}
    (inside : ∀ span token, S.CarriesAt token n d h (f span token) (f' (span.shift S.offset) token))
    (seam : ∀ span span' token token', token.Stops → token'.Stops → S.before.length < n →
      S.CarriesOver d h (f span token) (f' span' token')) :
    S.Carries n d h (Parser.span >>= fun span => Parser.current >>= f span)
      (Parser.span >>= fun span => Parser.current >>= f' span) := by
  intro tokens tokens' matched bound
  rw [Parser.run_span, Parser.run_span, Parser.run_current, Parser.run_current]
  cases matched with
  | seam => exact seam _ _ _ _ S.before_stops S.after_stops bound
  | cons more behind => exact inside _ _ _ _ _ rfl more behind bound

/-- A block starts at the seam on both sides. -/
theorem atBlockStart {f f' : Bool → Parser β}
    (next : ∀ answer, S.Carries n d h (f answer) (f' answer)) :
    S.Carries n d h (Parser.atBlockStart >>= f) (Parser.atBlockStart >>= f') := by
  intro tokens tokens' matched bound
  have same : tokens.atBlockStart = tokens'.atBlockStart := by
    cases matched with
    | seam =>
      unfold Tokens.atBlockStart
      rcases S.before_stops with first | first <;> rcases S.after_stops with second | second <;>
        rw [first, second]
    | cons => rfl
  rw [Parser.run_atBlockStart, Parser.run_atBlockStart, ← same]
  exact next _ tokens tokens' matched bound

theorem expect {token : Token} (proper : token.Proper) (exact : ∀ value, token ≠ .float value) :
    S.Carries n 1 (Span.shift S.offset) (Parser.expect token) (Parser.expect token) := by
  intro tokens tokens' matched _
  by_cases found : tokens.current = token
  · cases matched with
    | seam => exact absurd found (S.before_stops.ne proper)
    | @cons lexeme rest rest' more behind =>
      have found' : (lexeme.shift S.offset).token = token := found
      intro span left ok
      rw [Parser.run_expect_cons found proper.2 exact] at ok
      cases ok
      exact ⟨rest', Parser.run_expect_cons found' proper.2 exact rest', behind, Nat.le_refl _⟩
  · have missing : tokens.current.agrees token = false :=
      Bool.eq_false_iff.mpr fun agrees => found ((Token.agrees_iff exact).mp agrees)
    rw [Parser.run_expect_error missing]
    exact .error

/-- A construct starts with a token of its own. -/
theorem opening {token : Token} {f f' : Unit → Parser β} (proper : token.Proper)
    (exact : ∀ value, token ≠ .float value) (next : S.Carries (n - 1) 0 h (f ()) (f' ())) :
    S.Carries n 1 h (Functor.discard (Parser.expect token) >>= f)
      (Functor.discard (Parser.expect token) >>= f') := by
  have passes : S.Carries n 1 id (Functor.discard (Parser.expect token))
      (Functor.discard (Parser.expect token)) := (expect proper exact).map fun _ => rfl
  exact passes.bind fun _ => next

/-- A token that is expected is passed. -/
theorem pass {token : Token} {f f' : Unit → Parser β} (proper : token.Proper)
    (exact : ∀ value, token ≠ .float value) (next : S.Carries n 0 h (f ()) (f' ())) :
    S.Carries n 0 h (Functor.discard (Parser.expect token) >>= f)
      (Functor.discard (Parser.expect token) >>= f') :=
  (opening proper exact (next.shorter (Nat.sub_le _ _))).weaken

theorem ident : S.Carries n 1 (Ident.shift S.offset) Parser.ident Parser.ident := by
  intro tokens tokens' matched _
  by_cases found : ∃ name, tokens.current = .ident name
  · obtain ⟨name, found⟩ := found
    cases matched with
    | seam => exact absurd found (S.before_stops.ne ⟨nofun, nofun⟩)
    | @cons lexeme rest rest' more behind =>
      have found' : (lexeme.shift S.offset).token = .ident name := found
      intro ident left ok
      rw [Parser.run_ident_cons found] at ok
      cases ok
      exact ⟨rest', Parser.run_ident_cons found' rest', behind, Nat.le_refl _⟩
  · have missing : ∀ name, tokens.current ≠ .ident name := fun name here => found ⟨name, here⟩
    rw [Parser.run_ident_error missing]
    exact .error

end Carries

namespace CarriesAt

variable {token : Token}

/-- The current token is passed. -/
theorem step {f f' : Unit → Parser β} (next : S.Carries (n - 1) 0 h (f ()) (f' ())) :
    S.CarriesAt token n 1 h (Parser.step >>= f) (Parser.step >>= f') := by
  intro lexeme rest rest' here more behind bound
  have more' : (lexeme.shift S.offset).token ≠ .endOfInput := here ▸ more
  rw [Parser.run_bind, Parser.run_step_cons (here ▸ more), Parser.run_bind, Parser.run_step_cons more']
  intro b left ok
  obtain ⟨left', ok', matched, passed⟩ := next rest rest' behind (by omega) b left ok
  exact ⟨left', ok', matched, by omega⟩

theorem weaken (carries : S.CarriesAt token n d g x x') : S.CarriesAt token n 0 g x x' := by
  intro lexeme rest rest' here more behind bound a left ok
  obtain ⟨left', ok', matched, passed⟩ := carries lexeme rest rest' here more behind bound a left ok
  exact ⟨left', ok', matched, by omega⟩

/-- The current token is passed, and not counted. -/
theorem passing {f f' : Unit → Parser β} (next : S.Carries n 0 h (f ()) (f' ())) :
    S.CarriesAt token n 0 h (Parser.step >>= f) (Parser.step >>= f') :=
  (step (next.shorter (Nat.sub_le _ _))).weaken

theorem bind (carries : S.CarriesAt token n d g x x')
    (next : ∀ a, S.Carries (n - d) 0 h (f a) (f' (g a))) :
    S.CarriesAt token n d h (x >>= f) (x' >>= f') := by
  intro lexeme rest rest' here more behind bound
  refine (carries lexeme rest rest' here more behind bound).bind fun a left left' matched passed => ?_
  exact next a left left' matched (by omega)

theorem error {failure : Tokens → ParseError}
    (fails : ∀ tokens, x tokens = .error (failure tokens) tokens) :
    S.CarriesAt token n d g x x' := by
  intro lexeme rest rest' _ _ _ _
  rw [fails]
  exact .error

theorem span {f f' : Span → Parser β}
    (next : ∀ span, S.CarriesAt token n d h (f span) (f' (span.shift S.offset))) :
    S.CarriesAt token n d h (Parser.span >>= f) (Parser.span >>= f') :=
  fun lexeme rest rest' => next lexeme.span lexeme rest rest'

theorem current {f f' : Token → Parser β} (next : S.CarriesAt token n d h (f token) (f' token)) :
    S.CarriesAt token n d h (Parser.current >>= f) (Parser.current >>= f') := by
  intro lexeme rest rest' here more behind bound
  subst here
  exact next lexeme rest rest' rfl more behind bound

/-- The token behind the current one is the same, unless it stands at the seam. -/
theorem peek {f f' : Token → Parser β}
    (next : ∀ second second', second = second' ∨ second.Stops ∧ second'.Stops →
      S.CarriesAt token n d h (f second) (f' second')) :
    S.CarriesAt token n d h (Parser.peek >>= f) (Parser.peek >>= f') := by
  intro lexeme rest rest' here more behind bound
  rw [Parser.run_peek, Parser.run_peek, Tokens.peek_cons, Tokens.peek_cons]
  refine next _ _ ?_ lexeme rest rest' here more behind bound
  cases behind with
  | seam => exact .inr ⟨S.before_stops, S.after_stops⟩
  | cons => exact .inl rfl

end CarriesAt

namespace Carries

theorem unexpected (expected : List String) :
    S.Carries n d g (Parser.unexpected expected) x' :=
  fun _ _ _ _ => .error

/-- A token that is passed if it is there, and it is not there at the seam. -/
theorem skip {token : Token} {f f' : Unit → Parser β} (proper : token.Proper)
    (next : S.Carries n 0 h (f ()) (f' ())) :
    S.Carries n 0 h (Parser.skip token >>= f) (Parser.skip token >>= f') := by
  have passes : S.Carries n 0 id (Parser.skip token) (Parser.skip token) := by
    refine current (fun found => ?_) fun found found' stops stops' _ => ?_
    · split
      · exact CarriesAt.passing (.pure rfl)
      · exact (pure rfl).carriesAt
    · rw [if_neg (stops.ne proper), if_neg (stops'.ne proper)]
      exact .pure rfl
  exact passes.bind fun _ => next

/-- A token that is demanded is passed, whatever is expected in its place. -/
theorem demand {token : Token} {expected expected' : List String} {f f' : Unit → Parser β}
    (proper : token.Proper) (next : S.Carries n 0 h (f ()) (f' ())) :
    S.Carries n 0 h (Parser.demand token expected >>= f) (Parser.demand token expected' >>= f') := by
  have passes : S.Carries n 0 id (Parser.demand token expected) (Parser.demand token expected') := by
    refine current (fun found => ?_) fun found found' stops stops' bound => ?_
    · split
      · exact CarriesAt.passing (.pure rfl)
      · exact (unexpected expected).carriesAt
    · rw [if_neg (stops.ne proper), if_neg (stops'.ne proper)]
      exact (unexpected expected).carriesOver bound
  exact passes.bind fun _ => next

end Carries

/-- What follows fails where the first parser has reached the end of its list. -/
theorem CarriesInside.bind (inside : S.CarriesInside n g x x')
    (closes : ∀ a left, left.current = .endOfInput → ∃ error left', f a left = .error error left')
    (next : ∀ a, S.Carries n 0 h (f a) (f' (g a))) : S.Carries n 0 h (x >>= f) (x' >>= f') := by
  intro tokens tokens' matched bound b last ok
  obtain ⟨a, left, first, second⟩ := Parser.run_bind_eq_ok.mp ok
  have more : left.current ≠ .endOfInput := by
    intro ends
    obtain ⟨error, left', fails⟩ := closes a left ends
    rw [fails] at second
    cases second
  obtain ⟨left', first', behind, passed⟩ := inside tokens tokens' matched bound a left first more
  obtain ⟨last', second', matched', passed'⟩ := next a left left' behind (by omega) b last second
  exact ⟨last', Parser.run_bind_eq_ok.mpr ⟨_, _, first', second'⟩, matched', by omega⟩

end Seam

end Primer
