import Primer.Proofs.Parsing.Grammatical
import Primer.Proofs.Parsing.Phrases

/-!
# What is parsed is written so

Every construct that the parser gives is written by the tokens that the parser has passed, no more
and no fewer. A parser accounts for its tokens when what it passes has a given relation to its
result; there is one lemma for each primitive parser and one for each construct, and sequencing
parsers puts what they pass side by side.
-/

namespace Primer

variable {α β : Type}

/-- Whatever the parser gives on these tokens, those it has passed have the given relation to it. -/
def AccountsOn (tokens : Tokens) (post : α → Tokens → Prop) (x : Parser α) : Prop :=
  ∀ (a : α) (left : Tokens), x tokens = .ok a left →
    ∃ passed : Tokens, tokens = passed ++ left ∧ passed.Proper ∧ post a passed

/-- The same on tokens that start with the given one. -/
def AccountsAt (token : Token) (span : Span) (post : α → Tokens → Prop) (x : Parser α) : Prop :=
  ∀ tokens : Tokens, tokens.current = token → tokens.span = span → AccountsOn tokens post x

/-- The same on all tokens. -/
def Accounts (post : α → Tokens → Prop) (x : Parser α) : Prop :=
  ∀ tokens : Tokens, AccountsOn tokens post x

namespace Tokens

theorem Proper.nil : Proper [] := nofun

theorem Proper.append {tokens tokens' : Tokens} (first : tokens.Proper) (second : tokens'.Proper) :
    Proper (tokens ++ tokens') :=
  List.forall_mem_append.mpr ⟨first, second⟩

theorem Proper.singleton {lexeme : Lexeme} (more : lexeme.token ≠ .endOfInput) : Proper [lexeme] :=
  List.forall_mem_singleton.mpr more

/-- Nothing proper stands before an end of input that is current. -/
theorem Proper.eq_nil {front rest : Tokens} (proper : front.Proper)
    (ends : (front ++ rest).current = .endOfInput) : front = [] := by
  cases front with
  | nil => rfl
  | cons lexeme front => exact absurd ends (proper lexeme List.mem_cons_self)

theorem Blank.proper {tokens : Tokens} (blank : tokens.Blank) : tokens.Proper := by
  intro lexeme member
  rw [blank lexeme member]
  exact nofun

/-- At any token but an end of input there is one to pass. -/
theorem eq_cons_step {tokens : Tokens} {token : Token} (here : tokens.current = token)
    (more : token ≠ .endOfInput) : tokens = ⟨token, tokens.span⟩ :: tokens.step := by
  cases tokens with
  | nil => exact absurd here.symm more
  | cons lexeme rest =>
    subst here
    rw [step_cons more]
    rfl

theorem span_append {front : Tokens} (some : front ≠ []) (rest : Tokens) :
    span (front ++ rest) = span front := by
  cases front with
  | nil => exact absurd rfl some
  | cons => rfl

end Tokens

section Primitives

variable {token : Token} {place : Span} {post : β → Tokens → Prop} {mid : α → Tokens → Prop}

theorem AccountsOn.bind {tokens : Tokens} {x : Parser α} {f : α → Parser β}
    (first : AccountsOn tokens mid x)
    (second : ∀ a p, mid a p → Accounts (fun b q => post b (p ++ q)) (f a)) :
    AccountsOn tokens post (x >>= f) := by
  intro b last ran
  obtain ⟨a, left, parsed, goesOn⟩ := Parser.run_bind_eq_ok.mp ran
  obtain ⟨p, rfl, proper, holds⟩ := first a left parsed
  obtain ⟨q, rfl, proper', holds'⟩ := second a p holds left b last goesOn
  exact ⟨p ++ q, (List.append_assoc _ _ _).symm, proper.append proper', holds'⟩

theorem Accounts.at {x : Parser β} (accounts : Accounts post x) : AccountsAt token place post x :=
  fun tokens _ _ => accounts tokens

namespace Accounts

theorem front {x : Parser β} (each : ∀ token span, AccountsAt token span post x) :
    Accounts post x :=
  fun tokens => each tokens.current tokens.span tokens rfl rfl

theorem pure {b : β} (holds : post b []) : Accounts post (pure b) := by
  rintro tokens _ _ ⟨⟩
  exact ⟨[], rfl, .nil, holds⟩

theorem bind {x : Parser α} {f : α → Parser β} (first : Accounts mid x)
    (second : ∀ a p, mid a p → Accounts (fun b q => post b (p ++ q)) (f a)) :
    Accounts post (x >>= f) :=
  fun tokens => (first tokens).bind second

theorem map {x : Parser α} {g : α → β} (first : Accounts mid x)
    (holds : ∀ a p, mid a p → post (g a) p) : Accounts post (g <$> x) := by
  rw [map_eq_pure_bind]
  refine first.bind fun a p given => .pure ?_
  rw [List.append_nil]
  exact holds a p given

/-- The last parser of a construct, and what is made of its result. -/
theorem give {x : Parser α} {g : α → β} (first : Accounts mid x)
    (holds : ∀ a p, mid a p → post (g a) p) : Accounts post (x >>= fun a => Pure.pure (g a)) := by
  rw [← map_eq_pure_bind]
  exact first.map holds

theorem mono {x : Parser β} {weaker : β → Tokens → Prop} (accounts : Accounts post x)
    (imp : ∀ b p, post b p → weaker b p) : Accounts weaker x := by
  intro tokens b left ran
  obtain ⟨p, same, proper, holds⟩ := accounts tokens b left ran
  exact ⟨p, same, proper, imp b p holds⟩

theorem throw (error : ParseError) : Accounts post (throw error) :=
  fun _ _ _ ran => nomatch ran

theorem unexpected (expected : List String) : Accounts post (Parser.unexpected expected) :=
  fun _ _ _ ran => nomatch ran

theorem span {f : Span → Parser β} (each : ∀ span, Accounts post (f span)) :
    Accounts post (Parser.span >>= f) :=
  fun tokens => each tokens.span tokens

/-- Behind a look at the tokens left, which only bounds a loop. -/
theorem budget {f : Tokens → Parser β} (each : ∀ tokens, Accounts post (f tokens)) :
    Accounts post (get >>= f) :=
  fun tokens => each tokens tokens

theorem current {f : Token → Parser β}
    (each : ∀ token span, AccountsAt token span post (f token)) :
    Accounts post (Parser.current >>= f) :=
  fun tokens => each tokens.current tokens.span tokens rfl rfl

/-- A body may start a block at a newline, and at the end of input. -/
theorem atBlockStart {f : Bool → Parser β} (line : ∀ place, AccountsAt .newline place post (f true))
    (ends : ∀ place, AccountsAt .endOfInput place post (f true)) (same : Accounts post (f false)) :
    Accounts post (Parser.atBlockStart >>= f) := by
  intro tokens
  show AccountsOn tokens post (f tokens.atBlockStart)
  cases here : tokens.current with
  | newline =>
    rw [Tokens.atBlockStart, here]
    exact line tokens.span tokens here rfl
  | endOfInput =>
    rw [Tokens.atBlockStart, here]
    exact ends tokens.span tokens here rfl
  | _ =>
    rw [Tokens.atBlockStart, here]
    exact same tokens

theorem expect (token : Token) (more : token ≠ .endOfInput)
    (exact : ∀ value, token ≠ .float value) :
    Accounts (fun span p => p = [⟨token, span⟩]) (Parser.expect token) := by
  intro tokens found left ran
  cases agrees : tokens.current.agrees token with
  | true =>
    rw [Parser.run_expect agrees] at ran
    cases ran
    have here := (Token.agrees_iff exact).mp agrees
    exact ⟨[⟨token, tokens.span⟩], Tokens.eq_cons_step here more, .singleton more, rfl⟩
  | false =>
    rw [Parser.run_expect_error agrees] at ran
    cases ran

theorem pass {f : Unit → Parser β} (more : token ≠ .endOfInput)
    (exact : ∀ value, token ≠ .float value)
    (behind : ∀ span, Accounts (fun b q => post b (⟨token, span⟩ :: q)) (f ())) :
    Accounts post (discard (Parser.expect token) >>= f) := by
  have passed : Accounts (fun _ p => ∃ span, p = [⟨token, span⟩])
      (discard (Parser.expect token)) :=
    (expect token more exact).map fun span _ same => ⟨span, same⟩
  refine passed.bind ?_
  rintro _ _ ⟨span, rfl⟩
  exact behind span

theorem ident : Accounts (fun ident p => p = [ident.lexeme]) Parser.ident := by
  intro tokens ident left ran
  by_cases found : ∃ name, tokens.current = .ident name
  · obtain ⟨name, found⟩ := found
    rw [Parser.run_ident found] at ran
    cases ran
    exact ⟨[⟨.ident name, tokens.span⟩], Tokens.eq_cons_step found nofun, .singleton nofun, rfl⟩
  · rw [Parser.run_ident_error fun name here => found ⟨name, here⟩] at ran
    cases ran

end Accounts

namespace AccountsAt

theorem bind {x : Parser α} {f : α → Parser β} (first : AccountsAt token place mid x)
    (second : ∀ a p, mid a p → Accounts (fun b q => post b (p ++ q)) (f a)) :
    AccountsAt token place post (x >>= f) :=
  fun tokens here there => (first tokens here there).bind second

theorem current {f : Token → Parser β} (behind : AccountsAt token place post (f token)) :
    AccountsAt token place post (Parser.current >>= f) := by
  rintro tokens rfl
  exact behind tokens rfl

theorem span {f : Span → Parser β} (behind : AccountsAt token place post (f place)) :
    AccountsAt token place post (Parser.span >>= f) := by
  rintro tokens here rfl
  exact behind tokens here rfl

theorem peek {f : Token → Parser β} (each : ∀ second, AccountsAt token place post (f second)) :
    AccountsAt token place post (Parser.peek >>= f) :=
  fun tokens => each tokens.peek tokens

theorem step {f : Unit → Parser β} (more : token ≠ .endOfInput)
    (behind : Accounts (fun b q => post b (⟨token, place⟩ :: q)) (f ())) :
    AccountsAt token place post (Parser.step >>= f) := by
  rintro tokens here rfl b left ran
  obtain ⟨q, same, proper, holds⟩ := behind tokens.step b left ran
  refine ⟨⟨token, tokens.span⟩ :: q, ?_, (Tokens.Proper.singleton more).append proper, holds⟩
  rw [List.cons_append, ← same]
  exact Tokens.eq_cons_step here more

end AccountsAt

namespace Accounts

theorem demand {f : Unit → Parser β} {expected : List String} (more : token ≠ .endOfInput)
    (behind : ∀ span, Accounts (fun b q => post b (⟨token, span⟩ :: q)) (f ())) :
    Accounts post (Parser.demand token expected >>= f) := by
  have passed : Accounts (fun _ p => ∃ span, p = [⟨token, span⟩])
      (Parser.demand token expected) := by
    refine .current fun found span => ?_
    split
    next same =>
      subst same
      exact AccountsAt.step more (.pure ⟨span, rfl⟩)
    next => exact (unexpected _).at
  refine passed.bind ?_
  rintro _ _ ⟨span, rfl⟩
  exact behind span

theorem skip (token : Token) (more : token ≠ .endOfInput) :
    Accounts (fun _ p => Tokens.Optional token p) (Parser.skip token) := by
  refine .current fun found span => ?_
  split
  next same =>
    subst same
    exact AccountsAt.step more (.pure (.inr ⟨span, rfl⟩))
  next => exact (pure (.inl rfl)).at

end Accounts

/-- At a newline there is at least one to skip. -/
theorem AccountsAt.skipNewlines :
    AccountsAt .newline place (fun _ p => p ≠ [] ∧ p.Blank) Parser.skipNewlines := by
  rintro tokens here _ _ _ ⟨⟩
  obtain ⟨newlines, rest, rfl, blank, stops⟩ := tokens.exists_newlines
  rw [Tokens.skipNewlines_append blank stops]
  refine ⟨newlines, rfl, Tokens.Blank.proper blank, ?_, blank⟩
  rintro rfl
  exact stops here

end Primitives

/-- The tokens that the parser passes are a way to write its result. -/
abbrev Transcribes (phrase : α → Phrase) (x : Parser α) : Prop :=
  Accounts (fun a p => Written p (phrase a)) x

namespace Grammar

/-- Parsers for inner expressions that account for their tokens. -/
def Writes (inner : Inner) : Prop :=
  ∀ precedence, Transcribes .expression (inner precedence)

theorem openBlock {inner : Inner} {tokens left : Tokens} {body : Body}
    (ran : branchBody inner true tokens = .ok body left) :
    ∃ found, block inner tokens = .ok found left ∧ body = found.toBody := by
  rw [branchBody, if_pos rfl, map_eq_pure_bind] at ran
  obtain ⟨found, left, parsed, made⟩ := Parser.run_bind_eq_ok.mp ran
  cases made
  exact ⟨found, parsed, rfl⟩

namespace Writes

variable {inner : Inner} (writes : Writes inner)
include writes

theorem statement : Transcribes .statement (statement inner) := by
  refine .front fun token here => .span (.current ?_)
  split
  -- `return` with or without a value, `continue`, `break`, or an expression
  · refine .step nofun (.current fun next _ => Accounts.at ?_)
    split
    · exact .pure .returnNothing
    · exact (writes none).give fun _ _ given => .returnValue given
  · exact .step nofun (.pure .continuing)
  · exact .step nofun (.pure .breaking)
  · exact ((writes none).mono fun _ _ given => .value given).at

theorem statements (budget : Nat) : Transcribes .lines (statements inner budget) := by
  induction budget with
  | zero => exact .pure .noLine
  | succ budget ih =>
    refine .current fun token _ => Accounts.at ?_
    split
    · exact .pure .noLine
    · refine writes.statement.bind fun first p given => .current fun token here => ?_
      split
      · exact AccountsAt.skipNewlines.bind fun _ newlines blank =>
          ih.give fun _ _ others => .lines blank.1 blank.2 given others
      · refine Accounts.at ?_
        split
        · refine .pure ?_
          rw [List.append_nil]
          exact .line given
        · exact .unexpected _

/-- Newlines, statements, and a span that starts at the current token if there are none. -/
theorem block {tokens left : Tokens} {found : Block} (ran : block inner tokens = .ok found left) :
    ∃ newlines w : Tokens, tokens = newlines ++ (w ++ left) ∧ newlines.Blank ∧
      (tokens.current = .newline → newlines ≠ []) ∧ w.Proper ∧
      Written w (.lines found.statements) ∧
      found.span = blockSpan tokens.span.start found.statements := by
  obtain ⟨newlines, rest, same, blank, stops⟩ := tokens.exists_newlines
  rw [Grammar.block, Parser.run_span, Parser.run_skipNewlines, Parser.run_get] at ran
  obtain ⟨nodes, left, parsed, made⟩ := Parser.run_bind_eq_ok.mp ran
  cases made
  obtain ⟨w, behind, proper, written⟩ := writes.statements _ _ _ _ parsed
  rw [same, Tokens.skipNewlines_append blank stops] at behind
  refine ⟨newlines, w, behind ▸ same, blank, ?_, proper, written, rfl⟩
  rintro here rfl
  rw [same] at here
  exact stops here

theorem closedBlock : Transcribes .closed (closedBlock inner) := by
  intro tokens body last ran
  obtain ⟨found, left, parsed, goesOn⟩ := Parser.run_bind_eq_ok.mp ran
  obtain ⟨newlines, w, same, blank, -, proper, written, place⟩ := writes.block parsed
  have ends : Accounts (fun body p => ∃ here, body = found.toBody ∧
      p = [⟨.keyword .endWord, here⟩])
      (do discard (Parser.expect (.keyword .endWord)); return found.toBody) :=
    .pass nofun nofun fun here => .pure ⟨here, rfl, rfl⟩
  obtain ⟨_, rfl, properEnd, here, rfl, rfl⟩ := ends left body last goesOn
  have whole : tokens = (newlines ++ (w ++ [⟨.keyword .endWord, here⟩])) ++ last := by
    simpa only [List.append_assoc] using same
  refine ⟨_, whole, (Tokens.Blank.proper blank).append (proper.append properEnd), ?_⟩
  rw [Block.toBody, place, whole, Tokens.span_append (by simp)]
  exact .closed blank written

theorem body : Transcribes .body (body inner) := by
  have closed : Transcribes .body (Grammar.closedBlock inner) :=
    writes.closedBlock.mono fun _ _ given => .block given
  refine .atBlockStart (fun _ => closed.at) (fun _ => closed.at) ?_
  refine writes.statement.bind fun node p given => ?_
  exact (Accounts.skip (.keyword .endWord) nofun).give fun _ _ skipped => .inline given skipped

theorem expressions {closing : Token} (more : closing ≠ .endOfInput) (budget : Nat) :
    Accounts (fun result p => ∃ w, p = w ++ [⟨closing, result.2⟩] ∧
      Written w (.elements result.1)) (expressions inner closing budget) := by
  induction budget with
  | zero => exact .span fun _ => .throw _
  | succ budget ih =>
    refine (writes none).bind fun first p given => .current fun token here => ?_
    split
    next comma =>
      subst comma
      refine .step nofun (ih.bind ?_)
      rintro ⟨others, stop⟩ _ ⟨w, rfl, rest⟩
      refine .pure ⟨p ++ ⟨.comma, here⟩ :: w, ?_, .elements given rest⟩
      simp
    next =>
      split
      next same =>
        subst same
        exact .span (.step more (.pure ⟨p, rfl, .element given⟩))
      next => exact (Accounts.unexpected _).at

theorem expressionList (closing : Token) (more : closing ≠ .endOfInput) :
    Accounts (fun result p => ∃ w, p = w ++ [⟨closing, result.2⟩] ∧
      Written w (.elements result.1)) (expressionList inner closing) := by
  refine .current fun token here => ?_
  split
  next same =>
    subst same
    exact .span (.step more (.pure ⟨[], rfl, .noElement⟩))
  next => exact (Accounts.budget fun tokens => writes.expressions more tokens.length).at

theorem list : Transcribes .expression (list inner) := by
  refine (Accounts.expect .leftBracket nofun nofun).bind ?_
  rintro first _ rfl
  refine (writes.expressionList .rightBracket nofun).bind ?_
  rintro ⟨elements, last⟩ _ ⟨w, rfl, given⟩
  refine .pure ?_
  rw [List.append_nil]
  exact .list given

theorem assignment : Transcribes .expression (assignment inner) := by
  refine Accounts.ident.bind ?_
  rintro target _ rfl
  exact .pass nofun nofun fun _ => (writes none).give fun _ _ given => .assign given

theorem unary {token : Token} {here : Span} (sign : token ∈ Token.signs) :
    AccountsAt token here (fun node p => Written p (.expression node)) (unary inner) := by
  have more : token ≠ .endOfInput := by
    rintro rfl
    exact absurd sign (by decide)
  exact .span (.current (.step more ((writes _).give fun _ _ given => .unary sign given)))

theorem binary {token : Token} {here : Span} {w : Tokens} {left : Node}
    (known : token ∈ Token.infixes) (before : Written w (.expression left)) :
    AccountsAt token here (fun node p => Written (w ++ p) (.expression node))
      (binary inner left) := by
  have more : token ≠ .endOfInput := by
    rintro rfl
    exact absurd known (by decide)
  exact .current (.step more ((writes _).give fun _ _ given => .binary known before given))

theorem call {w : Tokens} {callee : Node} (before : Written w (.expression callee)) :
    Accounts (fun node p => Written (w ++ p) (.expression node)) (call inner callee) := by
  refine .pass nofun nofun fun first => (writes.expressionList .rightParen nofun).bind ?_
  rintro ⟨arguments, last⟩ _ ⟨w', rfl, given⟩
  refine .pure ?_
  rw [List.append_nil]
  exact .call before given

/-- A block behind a newline, which other branches may follow. -/
theorem branchBlock {place : Span} :
    AccountsAt .newline place (fun body p => Written p (.branch body))
      (branchBody inner true) := by
  intro tokens here there body left ran
  obtain ⟨found, parsed, rfl⟩ := openBlock ran
  obtain ⟨newlines, w, rfl, blank, some, proper, written, same⟩ := writes.block parsed
  cases newlines with
  | nil => exact absurd rfl (some here)
  | cons newline newlines =>
    have first : newline = ⟨.newline, place⟩ := by rw [← here, ← there]; rfl
    subst first
    refine ⟨_, (List.append_assoc _ _ _).symm, (Tokens.Blank.proper blank).append proper, ?_⟩
    rw [Block.toBody, same]
    exact .branchBlock (List.forall_mem_cons.mp blank).2 written

theorem branchLine : Transcribes .branch (branchBody inner false) :=
  writes.statement.map fun _ _ given => .branchLine given

/-- What may follow the body of a branch, if one has been read. -/
theorem branchEnd {others : Parser (Node × Body × Branches)}
    (rest : Accounts (fun result p => Written p (.branches result.1 result.2.1 result.2.2)) others)
    {here : Span} {w w' : Tokens} {condition : Node} {body : Body} (isBlock : Bool)
    (test : Written w (.expression condition)) (inside : Written w' (.branch body)) :
    Accounts (fun result p => Written (w ++ ⟨.keyword .thenWord, here⟩ :: (w' ++ p))
        (.branches result.1 result.2.1 result.2.2))
      (branchEnd inner others condition isBlock body) := by
  refine .current fun token place => ?_
  split
  -- `end`, `elif`, `else`, or the end of a body on the same line
  · exact .step nofun (.pure (.lastBranch test inside (.inr ⟨place, rfl⟩)))
  · exact .step nofun (rest.give fun _ _ behind => .elif test inside behind)
  · exact .step nofun (writes.body.give fun _ _ behind => .otherwise test inside behind)
  · refine Accounts.at ?_
    split
    · exact .unexpected _
    · exact .pure (.lastBranch test inside (.inl rfl))

theorem branches (budget : Nat) :
    Accounts (fun result p => Written p (.branches result.1 result.2.1 result.2.2))
      (branches inner budget) := by
  induction budget with
  | zero => exact .span fun _ => .throw _
  | succ budget ih =>
    rw [branches_succ]
    refine (writes none).bind fun condition w test => .pass nofun nofun fun here => ?_
    refine .atBlockStart (fun _ => ?_) (fun _ => ?_) ?_
    · exact writes.branchBlock.bind fun body _ inside => writes.branchEnd ih true test inside
    -- At the end of input the block has no token to pass, and there is no branch to end it.
    · intro tokens ends _ result last ran
      obtain ⟨body, left, opened, goesOn⟩ := Parser.run_bind_eq_ok.mp ran
      obtain ⟨found, parsed, rfl⟩ := openBlock opened
      obtain ⟨newlines, w', rfl, blank, -, proper, -, -⟩ := writes.block parsed
      rw [← List.append_assoc] at ends
      rw [((Tokens.Blank.proper blank).append proper).eq_nil ends, List.nil_append] at ends
      rw [Grammar.branchEnd, Parser.run_current, ends] at goesOn
      cases goesOn
    · exact writes.branchLine.bind fun body _ inside => writes.branchEnd ih false test inside

theorem conditional : Transcribes .expression (conditional inner) := by
  refine .pass nofun nofun fun here => .budget fun tokens => ?_
  exact (writes.branches tokens.length).give fun _ _ given => .conditional given

theorem loopStep : Transcribes .step (loopStep inner) := by
  refine .current fun token here => ?_
  split
  next same =>
    subst same
    exact .step nofun ((writes none).give fun _ _ given => .step given)
  next => exact (Accounts.pure .noStep).at

theorem forLoop : Transcribes .expression (forLoop inner) := by
  refine .pass nofun nofun fun _ => Accounts.ident.bind ?_
  rintro counter _ rfl
  refine .pass nofun nofun fun _ => (writes none).bind fun first _ start => ?_
  refine .pass nofun nofun fun _ => (writes none).bind fun limit _ stop => ?_
  refine writes.loopStep.bind fun step _ stride => .pass nofun nofun fun _ => ?_
  exact writes.body.give fun _ _ inside => .forLoop start stop stride inside

theorem whileLoop : Transcribes .expression (whileLoop inner) := by
  refine .pass nofun nofun fun _ => (writes none).bind fun condition _ test => ?_
  refine .pass nofun nofun fun _ => ?_
  exact writes.body.give fun _ _ inside => .whileLoop test inside

theorem repeatLoop : Transcribes .expression (repeatLoop inner) := by
  refine .pass nofun nofun fun _ => (writes none).bind fun count _ number => ?_
  refine .pass nofun nofun fun _ => ?_
  refine (Accounts.skip (.keyword .thenWord) nofun).bind fun _ _ optional => ?_
  exact writes.body.give fun _ _ inside => .repeatLoop number optional inside

theorem functionBody : Transcribes .functionBody (functionBody inner) := by
  refine .current fun token here => ?_
  split
  · exact .step nofun ((writes none).give fun _ _ given => .arrow given)
  · exact .step nofun (writes.closedBlock.mono fun _ _ given =>
      .functionBlock (.inr ⟨here, rfl⟩) given)
  · exact (writes.closedBlock.mono fun _ _ given => .functionBlock (.inl rfl) given).at
  · exact (Accounts.unexpected _).at

end Writes

theorem transcribes_params (budget : Nat) : Transcribes .params (params budget) := by
  induction budget with
  | zero =>
    refine Accounts.ident.give ?_
    rintro ident _ rfl
    exact .param
  | succ budget ih =>
    refine Accounts.ident.bind ?_
    rintro first _ rfl
    refine .current fun token here => ?_
    split
    · exact .step nofun (ih.give fun _ _ others => .params others)
    · exact (Accounts.pure .param).at
    · exact (Accounts.unexpected _).at

theorem transcribes_functionParams : Transcribes .params functionParams := by
  refine .current fun token _ => Accounts.at ?_
  split
  · exact .budget fun tokens => transcribes_params tokens.length
  · exact .pure .noParam

theorem accounts_functionName :
    Accounts (fun name p => p = name.toList.map Ident.lexeme) functionName := by
  refine .current fun token _ => Accounts.at ?_
  split
  · exact Accounts.ident.give fun _ _ same => same
  · exact .pure rfl

namespace Writes

variable {inner : Inner} (writes : Writes inner)
include writes

theorem function : Transcribes .expression (function inner) := by
  refine .pass nofun nofun fun _ => accounts_functionName.bind ?_
  rintro name _ rfl
  refine .demand nofun fun _ => transcribes_functionParams.bind fun params _ names => ?_
  refine .demand nofun fun _ => ?_
  exact writes.functionBody.give fun _ _ inside => .function names inside

theorem primary (precedence : Option Precedence) :
    Transcribes .expression (primary inner precedence) := by
  refine .front fun token here => .span (.current ?_)
  -- The current token picks the construct.
  cases token with
  | int value => exact .step nofun (.pure .int)
  | float value => exact .step nofun (.pure .float)
  | string value => exact .step nofun (.pure .string)
  | ident name =>
    refine .peek fun second => Accounts.at ?_
    split
    · exact writes.assignment
    · refine Accounts.ident.give ?_
      rintro ident _ rfl
      exact .access
  | leftParen =>
    refine .step nofun ((writes none).bind fun node w given => .pass nofun nofun fun _ => ?_)
    exact .pure (.parens given)
  | leftBracket => exact writes.list.at
  | plus | minus => exact writes.unary (by decide)
  | keyword word =>
    cases word with
    | notWord => exact writes.unary (by decide)
    | ifWord => exact writes.conditional.at
    | forWord => exact writes.forLoop.at
    | whileWord => exact writes.whileLoop.at
    | repeatWord => exact writes.repeatLoop.at
    | funWord => exact writes.function.at
    | _ => exact (Accounts.throw _).at
  | _ => exact (Accounts.throw _).at

theorem continuation (precedence : Precedence) (budget : Nat) {w : Tokens} {left : Node}
    (before : Written w (.expression left)) :
    Accounts (fun node p => Written (w ++ p) (.expression node))
      (continuation inner precedence budget left) := by
  induction budget generalizing w left with
  | zero =>
    refine .pure ?_
    rwa [List.append_nil]
  | succ budget ih =>
    rw [continuation_succ]
    refine .current fun token here => ?_
    split
    next binds =>
      -- Whichever way the expression goes on, what it makes is the left operand of the next round.
      have operand : AccountsAt token here (fun node p => Written (w ++ p) (.expression node))
          (if token = .leftParen then Grammar.call inner left else Grammar.binary inner left) := by
        split
        next => exact (writes.call before).at
        next noCall => exact writes.binary (mem_infixes_of_looser binds noCall) before
      refine operand.bind fun node p given => (ih given).mono fun _ _ whole => ?_
      rwa [List.append_assoc] at whole
    next =>
      refine Accounts.at (.pure ?_)
      rwa [List.append_nil]

theorem expressionOver (precedence : Option Precedence) :
    Transcribes .expression (expressionOver inner precedence) :=
  (writes.primary precedence).bind fun _ _ first => .budget fun tokens =>
    writes.continuation _ tokens.length first

end Writes

/-- By induction on the budget: an expression is written by the tokens it is read from. -/
theorem writes_within (budget : Nat) : Writes (expressionWithin budget) := by
  induction budget with
  | zero => exact fun _ => .span fun _ => .throw _
  | succ budget ih => exact fun precedence => ih.expressionOver precedence

/-- A program is written by all the tokens up to an end of input. -/
theorem written_of_program {tokens left : Tokens} {found : Block}
    (ran : program tokens = .ok found left) :
    ∃ newlines w : Tokens, tokens = newlines ++ (w ++ left) ∧ newlines.Blank ∧ w.Proper ∧
      Written w (.lines found.statements) ∧ left.current = .endOfInput := by
  obtain ⟨block, left, parsed, goesOn⟩ := Parser.run_bind_eq_ok.mp ran
  rw [Parser.run_current] at goesOn
  split at goesOn
  next ends =>
    cases goesOn
    obtain ⟨newlines, w, same, blank, -, proper, written, -⟩ :=
      (writes_within tokens.length).block parsed
    exact ⟨newlines, w, same, blank, proper, written, ends⟩
  next => cases goesOn

theorem span_of_program {tokens left : Tokens} {found : Block}
    (ran : program tokens = .ok found left) :
    found.span = blockSpan tokens.span.start found.statements := by
  obtain ⟨block, left, parsed, goesOn⟩ := Parser.run_bind_eq_ok.mp ran
  rw [Parser.run_current] at goesOn
  split at goesOn
  next =>
    cases goesOn
    obtain ⟨_, _, -, -, -, -, -, span⟩ := (writes_within tokens.length).block parsed
    exact span
  next => cases goesOn

end Grammar

end Primer
