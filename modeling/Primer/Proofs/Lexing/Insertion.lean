import Primer.Proofs.Lexing.Spacing

/-!
# More layout between tokens

Layout may be put anywhere in a source where no token is cut in two, also inside other layout, and the
same tokens are read. A blank may stand in a comment, but a comment only before a line feed or at the end
of the source, because it takes up the rest of its line.

The argument is about the text alone. A source is layout and tokens in turn, so the layout is put into
other layout, which makes it longer (`Layout.insert`), or behind a token, which it does not go on with
(`Layout.standsFor`).
-/

namespace Primer

open Lexer

namespace Layout

variable {text behind extra front between : List Char}

theorem not_mem (layout : Layout text behind) : '\n' ∉ text := by
  induction layout with
  | none => exact List.not_mem_nil
  | blank blank _ ih =>
    intro member
    rcases List.mem_cons.mp member with rfl | member
    · exact absurd blank (by decide)
    · exact ih member
  | comment inside => simpa using inside

/-- Layout inside of layout. -/
theorem insert (layout : Layout (front ++ between) behind) (inserted : Layout extra (between ++ behind)) :
    Layout (front ++ (extra ++ between)) behind := by
  induction front with
  | nil => exact inserted.append layout
  | cons c front ih =>
    cases layout with
    | blank blank rest => exact .blank blank (ih rest)
    | comment inside ends =>
      -- Within a comment everything up to the line feed belongs to it.
      have inside : '\n' ∉ front ++ between := inside
      have longer : '\n' ∉ front ++ (extra ++ between) := by
        simp only [List.mem_append, not_or] at inside ⊢
        exact ⟨inside.1, inserted.not_mem, inside.2⟩
      exact .comment longer ends

/-- Layout does not go on with the token before it. -/
theorem standsFor (layout : Layout extra behind) (front : List Char) :
    StandsFor (front ++ (extra ++ behind)) (front ++ behind) := by
  cases front with
  | cons c front => exact .inl rfl
  | nil =>
    cases layout with
    | none => exact .refl behind
    | @blank c _ _ blank _ =>
      right
      rintro d ⟨⟩
      rcases isBlank_iff.mp blank with rfl | rfl | rfl | rfl <;> decide
    | comment =>
      right
      rintro d ⟨⟩
      decide

/-- Of the text behind, only the first character matters. -/
theorem congr {other : List Char} (layout : Layout text behind) (same : other.head? = behind.head?) :
    Layout text other := by
  induction layout with
  | none => exact .none other
  | blank blank _ ih => exact .blank blank (ih same)
  | comment inside ends => exact .comment inside (same ▸ ends)

end Layout

/-- The tokens do not depend on the offset. -/
theorem Spaced.further {offset : Nat} {text : List Char} {lexemes : List Lexeme}
    (spaced : Spaced offset text lexemes) (distance : Nat) :
    ∃ lexemes', Spaced (offset + distance) text lexemes' ∧
      lexemes'.map Lexeme.token = lexemes.map Lexeme.token :=
  ⟨_, (spaced.lexed.shift distance).spaced, by simp [Lexeme.shift]⟩

/-- An offset between the two ends of a span. -/
def Span.Cuts (span : Span) (offset : Nat) : Prop :=
  span.start < offset ∧ offset < span.stop

/-- A place that does not cut the first token in two is in front of the token or behind it. -/
theorem before_or_behind {offset : Nat} {front behind skipped taken rest : List Char}
    (split : skipped ++ (taken ++ rest) = front ++ behind)
    (outside : ¬ Span.Cuts
      ⟨offset + Text.byteLength skipped, offset + Text.byteLength skipped + Text.byteLength taken⟩
      (offset + Text.byteLength front)) :
    (∃ between, skipped = front ++ between ∧ behind = between ++ (taken ++ rest)) ∨
    ∃ between, front = skipped ++ (taken ++ between) ∧ rest = between ++ behind := by
  rcases List.append_eq_append_iff.mp split with ⟨inner, rfl, inside⟩ | ⟨between, rfl, rfl⟩
  · rcases List.append_eq_append_iff.mp inside with ⟨between, rfl, rfl⟩ | ⟨between, rfl, rfl⟩
    · exact .inr ⟨between, rfl, rfl⟩
    · -- The place is within the token or at one of its ends.
      by_cases first : inner = []
      · exact .inl ⟨[], by simp [first], by simp [first]⟩
      · by_cases last : between = []
        · exact .inr ⟨[], by simp [last], by simp [last]⟩
        · have positive := Text.byteLength_pos first
          have positive' := Text.byteLength_pos last
          simp only [Span.Cuts, Text.byteLength_append] at outside
          omega
  · exact .inl ⟨between, rfl, rfl⟩

/-- Layout between the tokens of a text. The induction is on the tokens: before the first one the layout
makes that in front of it longer, and behind it the tokens left are those of a shorter text. -/
theorem Spaced.insert {offset : Nat} {text front behind extra : List Char} {lexemes : List Lexeme}
    (spaced : Spaced offset text lexemes) (split : text = front ++ behind)
    (outside : ∀ lexeme ∈ lexemes, ¬ lexeme.span.Cuts (offset + Text.byteLength front))
    (inserted : Layout extra behind) :
    ∃ lexemes', Spaced offset (front ++ (extra ++ behind)) lexemes' ∧
      lexemes'.map Lexeme.token = lexemes.map Lexeme.token := by
  induction spaced generalizing front with
  | last layout =>
    subst split
    refine ⟨_, .last (layout.insert (by simpa using inserted)), rfl⟩
  | @next offset skipped taken rest token lexemes layout extent alone others ih =>
    obtain ⟨here, outside⟩ := List.forall_mem_cons.mp outside
    rcases before_or_behind split here with ⟨between, rfl, rfl⟩ | ⟨between, rfl, rfl⟩
    · obtain ⟨lexemes', others', tokens⟩ := others.further (Text.byteLength extra)
      have total : offset + Text.byteLength (front ++ between) + Text.byteLength taken
            + Text.byteLength extra
          = offset + Text.byteLength (front ++ (extra ++ between)) + Text.byteLength taken := by
        simp only [Text.byteLength_append]
        omega
      rw [total] at others'
      rw [← List.append_assoc extra, ← List.append_assoc front]
      refine ⟨_, .next (layout.insert inserted) extent ?_ others', ?_⟩
      · rwa [tokens]
      · simp [tokens]
    · have total : offset + Text.byteLength (skipped ++ (taken ++ between))
          = offset + Text.byteLength skipped + Text.byteLength taken + Text.byteLength between := by
        simp only [Text.byteLength_append, Nat.add_assoc]
      rw [total] at outside
      obtain ⟨lexemes', others', tokens⟩ := ih rfl outside
      obtain ⟨c, tail, rfl⟩ := extent.exists_cons
      rw [List.append_assoc skipped, List.append_assoc (c :: tail)]
      refine ⟨_, .next (layout.congr rfl) (extent.before (inserted.standsFor between)) ?_ others', ?_⟩
      · rwa [tokens]
      · simp [tokens]

/-- Layout in a source at a place where it does not cut a token in two leaves the tokens as they are, and
only their spans move.

The place is given by the two parts of the source, so it is between two characters. The conditions on it
are needed: a blank inside of `<=` makes two tokens of one, and a comment would hide what stands behind it
on its line, which is why `Layout` looks at the text behind. -/
theorem tokens_of_inserted_layout {front behind extra : String} {lexemes : List Lexeme}
    (read : lex (front ++ behind) = .ok lexemes)
    (outside : ∀ lexeme ∈ lexemes, ¬ lexeme.span.Cuts front.utf8ByteSize)
    (layout : Layout extra.toList behind.toList) :
    ∃ lexemes', lex (front ++ extra ++ behind) = .ok lexemes' ∧
      lexemes'.map Lexeme.token = lexemes.map Lexeme.token := by
  have spaced := lex_eq_ok_iff_spaced.mp read
  rw [String.toList_append] at spaced
  have outside : ∀ lexeme ∈ lexemes, ¬ lexeme.span.Cuts (0 + Text.byteLength front.toList) := by
    rwa [Text.byteLength_toList, Nat.zero_add]
  obtain ⟨lexemes', spaced', tokens⟩ := spaced.insert rfl outside layout
  refine ⟨lexemes', lex_eq_ok_iff_spaced.mpr ?_, tokens⟩
  simpa using spaced'

/-- A comment at the end of a line, with a separator and a quote in it. -/
theorem tokens_of_inserted_layout_comment :
    lex ("a<1" ++ "\n\n<b") = .ok [⟨.ident "a", 0, 1⟩, ⟨.less, 1, 2⟩, ⟨.int 1, 2, 3⟩, ⟨.newline, 3, 5⟩,
      ⟨.less, 5, 6⟩, ⟨.ident "b", 6, 7⟩, ⟨.endOfInput, 7, 7⟩] ∧
    ∃ lexemes', lex ("a<1" ++ "#;\"é" ++ "\n\n<b") = .ok lexemes' ∧ lexemes'.map Lexeme.token
      = [.ident "a", .less, .int 1, .newline, .less, .ident "b", .endOfInput] := by
  have read : lex ("a<1" ++ "\n\n<b") = .ok [⟨.ident "a", 0, 1⟩, ⟨.less, 1, 2⟩, ⟨.int 1, 2, 3⟩,
      ⟨.newline, 3, 5⟩, ⟨.less, 5, 6⟩, ⟨.ident "b", 6, 7⟩, ⟨.endOfInput, 7, 7⟩] := by
    decide +kernel
  have size : ("a<1").utf8ByteSize = 3 := by decide +kernel
  refine ⟨read, tokens_of_inserted_layout read ?_ ?_⟩
  · rw [size]
    simp [Span.Cuts]
  · have comment : Layout ['#', ';', '"', 'é'] ['\n', '\n', '<', 'b'] := .comment (by decide) (by simp)
    simpa using comment

end Primer
