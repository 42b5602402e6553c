import Primer.Proofs.Lexing.Joining
import Primer.Proofs.Lexing.Tiling

/-!
# Layout and tokens in turn

A source that is read to its end is layout and tokens in turn, and each token takes up a text of its
own. `Spaced` says so of the text and its tokens alone: it names neither a cursor nor the order in which
the lexer looks at characters.

## Main results

`lex_eq_ok_iff_spaced`: these are the tokens that are read, and no others.

`token_reads_alone`: the text between the ends of a token's span is read as that token and nothing else.

## Proof strategy

What is read does not depend on what stands behind it, beyond the first character (`Scans`) or, for a
run of separators, beyond the next token (`Separates`). So the text of a token (`Extent`) may be put in
front of any other text that does not go on with it.
-/

namespace Primer

open Lexer

/-! ### In front of other text -/

/-- The text starts neither with layout nor with a separator. -/
def Solid (text : List Char) : Prop :=
  ∀ c ∈ text.head?, isBlank c = false ∧ c ≠ '#' ∧ isSeparator c = false

theorem Visible.solid {text : List Char} (visible : Visible text) (rest : List Char) :
    Solid (text ++ rest) := by
  obtain ⟨c, tail, rfl, noBlank, noSeparator, noComment⟩ := visible
  rintro d ⟨⟩
  exact ⟨noBlank, noComment, noSeparator⟩

namespace Layout

variable {skipped rest : List Char}

/-- All of the layout is skipped if no more of it follows. -/
theorem skipLayout_eq (layout : Layout skipped rest)
    (stops : ∀ c ∈ rest.head?, isBlank c = false ∧ c ≠ '#') (offset : Nat) :
    skipLayout ⟨offset, skipped ++ rest⟩ = ⟨offset + Text.byteLength skipped, rest⟩ := by
  induction layout generalizing offset with
  | none rest => exact skipLayout_of_stops stops
  | @blank c text rest blank _ ih =>
    have passes : skipLayout ⟨offset, c :: (text ++ rest)⟩
        = skipLayout ⟨offset + c.utf8Size, text ++ rest⟩ := by
      simp [skipLayout, Cursor.dropWhile, blank, Text.byteLength, Nat.add_assoc]
    rw [List.cons_append, passes, ih stops, Text.byteLength, Nat.add_assoc]
  | @comment line rest inside ends =>
    have first : Cursor.dropWhile isBlank ⟨offset, '#' :: (line ++ rest)⟩
        = ⟨offset, '#' :: (line ++ rest)⟩ := rfl
    -- A comment goes up to a line feed or to the end.
    have inside : ∀ c ∈ '#' :: line, (c != '\n') = true := by
      simp only [List.forall_mem_cons, bne_iff_ne]
      exact ⟨by decide, fun c member feed => inside (feed ▸ member)⟩
    have behind := (dropWhile_append inside (by simpa using ends) offset).2
    rw [List.cons_append] at behind ⊢
    simp only [Primer.skipLayout_eq, first, List.head?_cons, if_true, behind]

/-- A run of separators goes over layout as it is. -/
theorem separatorRun_eq (layout : Layout skipped rest) (solid : Solid rest) (stop offset : Nat) :
    separatorRun stop offset false (skipped ++ rest)
      = (stop, ⟨offset + Text.byteLength skipped, rest⟩) := by
  induction layout generalizing offset with
  | none rest =>
    cases rest with
    | nil => rfl
    | cons c rest =>
      obtain ⟨noBlank, noComment, noSeparator⟩ := solid c rfl
      simp only [isSeparator, Bool.or_eq_false_iff] at noSeparator
      simp [separatorRun, noBlank, noComment, noSeparator, Text.byteLength]
  | @blank c text rest blank _ ih =>
    have passes := separatorRun_blanks (List.forall_mem_singleton.mpr blank) stop offset (text ++ rest)
    rw [List.singleton_append] at passes
    rw [List.cons_append, passes, ih solid]
    simp [Text.byteLength, Nat.add_assoc]
  | @comment line rest inside ends =>
    -- Behind the comment a line feed would be a separator, so nothing is.
    obtain rfl : rest = [] := by
      cases rest with
      | nil => rfl
      | cons c rest =>
        obtain rfl := ends c rfl
        exact absurd (solid '\n' rfl).2.2 (by decide)
    have inside : ∀ c ∈ line, (c != '\n') = true :=
      fun c member => bne_iff_ne.mpr fun feed => inside (feed ▸ member)
    have passes : separatorRun stop (offset + ('#').utf8Size) true (line ++ [])
        = separatorRun stop (offset + ('#').utf8Size + Text.byteLength line) false [] :=
      separatorRun_comment inside (by simp) stop _
    show separatorRun stop (offset + ('#').utf8Size) true (line ++ []) = _
    rw [passes, Text.byteLength, Nat.add_assoc]
    rfl

end Layout

/-! ### The text of a token -/

/-- The text is that of a token, with the other text behind it. -/
inductive Extent (taken rest : List Char) : Token → Prop
  | proper {token : Token} (proper : token.Proper) (visible : Visible taken)
      (scans : Scans taken rest token) : Extent taken rest token
  | newline (starts : ∃ c ∈ taken.head?, isSeparator c = true) (separates : Separates false taken) :
      Extent taken rest .newline

/-- The text is layout and tokens in turn, the first of which is looked for at the offset. Two newlines
never stand next to each other. -/
inductive Spaced : Nat → List Char → List Lexeme → Prop
  | last {offset : Nat} {skipped : List Char} (layout : Layout skipped []) :
      Spaced offset skipped [⟨.endOfInput, .emptyAt (offset + Text.byteLength skipped)⟩]
  | next {offset : Nat} {skipped taken rest : List Char} {token : Token} {lexemes : List Lexeme}
      (layout : Layout skipped (taken ++ rest)) (extent : Extent taken rest token)
      (alone : token = .newline → (lexemes.map Lexeme.token).head? ≠ some .newline)
      (others : Spaced (offset + Text.byteLength skipped + Text.byteLength taken) rest lexemes) :
      Spaced offset (skipped ++ (taken ++ rest))
        (⟨token, offset + Text.byteLength skipped,
          offset + Text.byteLength skipped + Text.byteLength taken⟩ :: lexemes)

theorem Extent.before {taken rest more : List Char} {token : Token} (extent : Extent taken rest token)
    (stands : StandsFor more rest) : Extent taken more token := by
  cases extent with
  | proper proper visible scans => exact .proper proper visible (scans.before stands)
  | newline starts separates => exact .newline starts separates

theorem Extent.exists_cons {taken rest : List Char} {token : Token} (extent : Extent taken rest token) :
    ∃ c tail, taken = c :: tail := by
  cases extent with
  | proper _ visible =>
    obtain ⟨c, tail, text, -⟩ := visible
    exact ⟨c, tail, text⟩
  | newline starts =>
    obtain ⟨c, first, -⟩ := starts
    obtain ⟨tail, text⟩ := List.head?_eq_some_iff.mp first
    exact ⟨c, tail, text⟩

/-- No layout stands at the front of a token. -/
theorem Extent.stops {taken rest : List Char} {token : Token} (extent : Extent taken rest token) :
    ∀ c ∈ (taken ++ rest).head?, isBlank c = false ∧ c ≠ '#' := by
  cases extent with
  | proper _ visible =>
    intro c first
    obtain ⟨noBlank, noComment, -⟩ := visible.solid rest c first
    exact ⟨noBlank, noComment⟩
  | newline starts =>
    obtain ⟨d, first, separator⟩ := starts
    obtain ⟨tail, rfl⟩ := List.head?_eq_some_iff.mp first
    rintro c ⟨⟩
    rcases isSeparator_iff.mp separator with rfl | rfl <;> decide

/-- More layout in front of the first token. -/
theorem Spaced.behind {offset : Nat} {pending text : List Char} {lexemes : List Lexeme}
    (layout : Layout pending text) (spaced : Spaced (offset + Text.byteLength pending) text lexemes) :
    Spaced offset (pending ++ text) lexemes := by
  have total (skipped : List Char) : offset + Text.byteLength pending + Text.byteLength skipped
      = offset + Text.byteLength (pending ++ skipped) := by
    rw [Text.byteLength_append, Nat.add_assoc]
  generalize start : offset + Text.byteLength pending = first at spaced
  cases spaced with
  | last inner =>
    rw [← start, total]
    exact .last (Layout.append (by simpa using layout) inner)
  | next inner extent alone others =>
    rw [← start, total] at others ⊢
    rw [← List.append_assoc]
    exact .next (layout.append inner) extent alone others

/-! ### What is read is layout and tokens in turn -/

/-- A token that is no newline is read where neither layout nor a separator stands. -/
theorem visible_of_proper {cursor : Cursor} {taken rest : List Char} {token : Token}
    (proper : token.Proper) (some : taken ≠ []) (text : (skipLayout cursor).rest = taken ++ rest)
    (scans : Scans taken rest token) : Visible taken := by
  obtain ⟨c, tail, rfl⟩ := List.exists_cons_of_ne_nil some
  have first : c ∈ (skipLayout cursor).rest.head? := by simp [text]
  obtain ⟨noBlank, noComment⟩ := skipLayout_stops cursor c first
  refine ⟨c, tail, rfl, noBlank, Bool.eq_false_iff.mpr fun separator => ?_, noComment⟩
  -- At a separator a newline would be read.
  obtain ⟨newline, isNewline, step⟩ := exists_newline ⟨c, first, separator⟩
  have same := congrArg Prod.fst
    ((scan_of_step step).symm.trans (scan_of_step (.token proper some text scans)))
  obtain rfl := Except.ok.inj same
  exact proper.1 isNewline

/-- Behind a newline no other newline is read. -/
theorem Lexed.head?_ne_newline {cursor after : Cursor} {lexeme : Lexeme} {lexemes : List Lexeme}
    (step : ScanStep cursor lexeme after) (isNewline : lexeme.token = .newline)
    (lexed : Lexed after lexemes) : (lexemes.map Lexeme.token).head? ≠ some .newline := by
  have read := scan_of_step step
  have newline : (scan cursor).1.IsNewline := ⟨lexeme.span, by rw [read, ← isNewline]⟩
  have other := not_isNewline_of_isNewline newline
  rw [read] at other
  have first {next after'} (step' : ScanStep after next after') : next.token ≠ .newline := by
    intro again
    apply other
    exact ⟨next.span, by rw [scan_of_step step', ← again]⟩
  cases lexed with
  | last step' | next step' => simpa using first step'

theorem Lexed.spaced {cursor : Cursor} {lexemes : List Lexeme} (lexed : Lexed cursor lexemes) :
    Spaced cursor.offset cursor.rest lexemes := by
  induction lexed with
  | @last cursor after lexeme step ends =>
    obtain ⟨skipped, text, offset, layout⟩ := skips_skipLayout cursor
    cases step with
    | last nothing =>
      rw [nothing, List.append_nil] at text
      rw [nothing] at layout
      rw [text, offset]
      exact .last layout
    | newline => cases ends
    | token proper => exact absurd ends proper.2
  | @next cursor after lexeme lexemes step more rest ih =>
    obtain ⟨skipped, text, offset, layout⟩ := skips_skipLayout cursor
    have alone : lexeme.token = .newline → (lexemes.map Lexeme.token).head? ≠ some .newline :=
      fun isNewline => rest.head?_ne_newline step isNewline
    cases step with
    | last => exact absurd rfl more
    | newline separator run =>
      obtain ⟨place, further, rfl, ⟨taken, here, stop, separates⟩, pending, behind, offset', layout'⟩ :=
        exists_runsTo separator run
      have starts : ∃ c ∈ taken.head?, isSeparator c = true := by
        cases taken with
        | nil => simp [stop, Text.byteLength] at further
        | cons c taken => simpa [here] using separator
      -- The layout skipped behind the last separator is put in front of the next token.
      have others : Spaced place.offset place.rest lexemes := by
        rw [behind]
        exact .behind layout' (offset' ▸ ih)
      rw [here] at layout text
      rw [stop, offset] at others ⊢
      rw [text]
      exact .next layout (.newline starts separates) alone others
    | token proper some here scans =>
      have visible := visible_of_proper proper some here scans
      rw [here] at layout text
      rw [offset] at ih ⊢
      rw [text]
      exact .next layout (.proper proper visible scans) alone ih

/-! ### Layout and tokens in turn are read as they are -/

/-- Where the first token is no newline, neither a separator nor more layout stands behind the layout. -/
theorem Spaced.exists_solid {offset : Nat} {text : List Char} {lexemes : List Lexeme}
    (spaced : Spaced offset text lexemes) (other : (lexemes.map Lexeme.token).head? ≠ some .newline) :
    ∃ skipped rest, text = skipped ++ rest ∧ Layout skipped rest ∧ Solid rest := by
  cases spaced with
  | last layout => exact ⟨text, [], by simp, layout, by simp [Solid]⟩
  | @next _ skipped taken rest _ _ layout extent =>
    cases extent with
    | proper _ visible => exact ⟨skipped, taken ++ rest, rfl, layout, visible.solid rest⟩
    | newline => exact absurd rfl other

/-- A run of separators is read as a newline, and the layout behind it is skipped. -/
theorem Separates.step {taken pending rest : List Char} (separates : Separates false taken)
    (starts : ∃ c ∈ taken.head?, isSeparator c = true) (layout : Layout pending rest)
    (solid : Solid rest) {cursor : Cursor} {start : Nat}
    (here : skipLayout cursor = ⟨start, taken ++ (pending ++ rest)⟩) :
    ScanStep cursor ⟨.newline, start, start + Text.byteLength taken⟩
      ⟨start + Text.byteLength taken + Text.byteLength pending, rest⟩ := by
  have run : separatorRun start start false (taken ++ (pending ++ rest))
      = (start + Text.byteLength taken,
        ⟨start + Text.byteLength taken + Text.byteLength pending, rest⟩) :=
    (separates start start _).trans (layout.separatorRun_eq solid _ _)
  have first : ∃ c ∈ (taken ++ (pending ++ rest)).head?, isSeparator c = true := by
    obtain ⟨c, first, separator⟩ := starts
    exact ⟨c, by simp [Option.mem_def.mp first], separator⟩
  have separator : ∃ c ∈ (skipLayout cursor).rest.head?, isSeparator c = true := by rwa [here]
  have step := @ScanStep.newline cursor (start + Text.byteLength taken) _ separator
    (by rw [here]; exact run)
  rwa [here] at step

theorem Spaced.lexed {offset : Nat} {text : List Char} {lexemes : List Lexeme}
    (spaced : Spaced offset text lexemes) : Lexed ⟨offset, text⟩ lexemes := by
  induction spaced with
  | @last offset skipped layout =>
    have here := layout.skipLayout_eq (by simp) offset
    rw [List.append_nil] at here
    have step := @ScanStep.last ⟨offset, skipped⟩ (by rw [here])
    rw [here] at step
    exact .last step rfl
  | @next offset skipped taken rest token lexemes layout extent alone others ih =>
    have here := layout.skipLayout_eq extent.stops offset
    cases extent with
    | proper proper visible scans =>
      obtain ⟨c, tail, rfl, -⟩ := visible
      have step := @ScanStep.token ⟨offset, skipped ++ (c :: tail ++ rest)⟩ (c :: tail) rest token
        proper (List.cons_ne_nil c tail) (by rw [here]) scans
      rw [here] at step
      exact .next step proper.2 ih
    | newline starts separates =>
      -- The layout behind the separators is skipped with them and not with the next token.
      obtain ⟨pending, behind, rfl, layout', solid⟩ := others.exists_solid (alone rfl)
      have lexed := ih.skipped
      rw [layout'.skipLayout_eq fun c first => ⟨(solid c first).1, (solid c first).2.1⟩] at lexed
      exact .next (separates.step starts layout' solid here) nofun lexed

/-- The tokens of a source are those that stand in it with layout between them. -/
theorem lex_eq_ok_iff_spaced {source : String} {lexemes : List Lexeme} :
    lex source = .ok lexemes ↔ Spaced 0 source.toList lexemes := by
  rw [lex_eq_ok_iff]
  exact ⟨Lexed.spaced, Spaced.lexed⟩

/-! ### One token -/

/-- Each token but the end of input has a text of its own. -/
theorem Spaced.exists_extent {offset : Nat} {text : List Char} {lexemes : List Lexeme}
    (spaced : Spaced offset text lexemes) {lexeme : Lexeme} (member : lexeme ∈ lexemes)
    (more : lexeme.token ≠ .endOfInput) :
    ∃ front taken rest, text = front ++ (taken ++ rest) ∧ Extent taken rest lexeme.token ∧
      lexeme.span = ⟨offset + Text.byteLength front,
        offset + Text.byteLength front + Text.byteLength taken⟩ := by
  induction spaced with
  | last => exact absurd (congrArg Lexeme.token (List.mem_singleton.mp member)) more
  | @next offset skipped taken rest token lexemes layout extent alone others ih =>
    rcases List.mem_cons.mp member with rfl | member
    · exact ⟨skipped, taken, rest, rfl, extent, rfl⟩
    · obtain ⟨front, taken', rest', rfl, extent', span⟩ := ih member
      refine ⟨skipped ++ (taken ++ front), taken', rest', by simp, extent', ?_⟩
      simp [span, Nat.add_assoc]

/-- The text of a token is read as that token, if nothing stands around it. -/
theorem Extent.spaced {taken rest : List Char} {token : Token} (extent : Extent taken rest token) :
    Spaced 0 taken [⟨token, 0, Text.byteLength taken⟩,
      ⟨.endOfInput, .emptyAt (Text.byteLength taken)⟩] := by
  have alone : StandsFor [] rest := .inr (by simp)
  have last : Spaced (0 + 0 + Text.byteLength taken) [] _ := .last (.none [])
  have whole := Spaced.next (.none _) (extent.before alone) (by simp) last
  simpa [Text.byteLength] using whole

/-- The text between the ends of a token's span is read as that token and nothing else. The source can be
cut at both ends, so they fall between characters. -/
theorem token_reads_alone {source : String} {lexemes : List Lexeme} (read : lex source = .ok lexemes)
    {lexeme : Lexeme} (member : lexeme ∈ lexemes) (more : lexeme.token ≠ .endOfInput) :
    ∃ front text behind : String, source = front ++ text ++ behind ∧
      lexeme.span = ⟨front.utf8ByteSize, (front ++ text).utf8ByteSize⟩ ∧
      lex text = .ok [⟨lexeme.token, 0, text.utf8ByteSize⟩, ⟨.endOfInput, .emptyAt text.utf8ByteSize⟩] := by
  obtain ⟨front, taken, rest, split, extent, span⟩ :=
    (lex_eq_ok_iff_spaced.mp read).exists_extent member more
  refine ⟨.ofList front, .ofList taken, .ofList rest, ?_, ?_, ?_⟩
  · rw [← String.ofList_append, ← String.ofList_append, List.append_assoc, ← split,
      String.ofList_toList]
  · rw [span, String.utf8ByteSize_append, Text.utf8ByteSize_ofList, Text.utf8ByteSize_ofList,
      Nat.zero_add]
  · rw [lex_eq_ok_iff_spaced, Text.utf8ByteSize_ofList, String.toList_ofList]
    exact extent.spaced

/-- Separators with a comment between them are one newline, which ends at the last of them. -/
theorem token_reads_alone_separators :
    lex "a;#b\n c" = .ok [⟨.ident "a", 0, 1⟩, ⟨.newline, 1, 5⟩, ⟨.ident "c", 6, 7⟩, ⟨.endOfInput, 7, 7⟩] ∧
    ∃ front text behind : String, "a;#b\n c" = front ++ text ++ behind ∧
      (⟨1, 5⟩ : Span) = ⟨front.utf8ByteSize, (front ++ text).utf8ByteSize⟩ ∧
      lex text = .ok [⟨.newline, 0, text.utf8ByteSize⟩, ⟨.endOfInput, .emptyAt text.utf8ByteSize⟩] := by
  have read : lex "a;#b\n c"
      = .ok [⟨.ident "a", 0, 1⟩, ⟨.newline, 1, 5⟩, ⟨.ident "c", 6, 7⟩, ⟨.endOfInput, 7, 7⟩] := by
    decide +kernel
  exact ⟨read, token_reads_alone read (List.mem_cons_of_mem _ List.mem_cons_self) nofun⟩

end Primer
