import Primer.Proofs.Source.Positions

/-!
# Bytes, lines and columns

A place in a source has three coordinates: the byte it starts at, the line it is on, and the number of
characters before it on that line. Looking up an offset goes from the first to the other two.

## Main result

`Position.resolve_exact`: the lookup ends at the greatest boundary that is not above the offset, its line
is the number of line feeds before that boundary, and its column the number of characters since the last
of them. So the order of boundaries is the order of lines and columns.

## Proof strategy

The line and column are found in a list of the offsets at which lines start, as the last one that is not
above the boundary. The starts before a boundary are those of the text before it
(`Source.takeWhile_lineStarts`), so the search counts line feeds (`Position.resolve_eq`). The order is read
off the lines that the source is split into (`Position.marks_resolve`).
-/

namespace Primer

namespace Position

/-- What an offset of a source resolves to. -/
structure Resolves (source : String) (offset : Nat) (here : Position) : Prop where
  /-- An offset inside a character or behind the source is brought back to a boundary. -/
  offset : IsGreatest {b | Boundary source b ∧ b ≤ min offset source.utf8ByteSize} here.offset
  /-- The line feeds before the boundary are counted, and the characters behind the last of them. -/
  counted : ∃ before behind, source.toList = before ++ behind ∧
    Text.byteLength before = here.offset ∧ here.line = before.count '\n' ∧
    here.column = (before.rtakeWhile (· ≠ '\n')).length
  /-- The line is the number of the last line that starts at the boundary or before, and the column
  counts the characters from there. -/
  searched : ∃ earlier line behind, source.toList = earlier ++ line ++ behind ∧
    ((Source.lineStarts source).takeWhile (· ≤ here.offset)).zipIdx.getLast?
      = some (Text.byteLength earlier, here.line) ∧
    Text.byteLength (earlier ++ line) = here.offset ∧ here.column = line.length

theorem resolves_resolve (source : String) (offset : Nat) :
    (resolve source offset).Resolves source offset := by
  have greatest := isGreatest_resolve source offset
  obtain ⟨before, behind, parts, resolved⟩ := resolve_eq source offset
  rw [resolved] at greatest ⊢
  obtain ⟨earlier, split, found⟩ := Source.getLast?_lineStarts parts
  exact ⟨greatest, ⟨before, behind, parts, rfl, rfl, rfl⟩, earlier, Source.lastLine before, behind,
    by rw [← split, parts], found, by rw [← split], rfl⟩

/-- The lookup is exact for every offset of every source, and boundaries are in the order of their lines
and, on one line, of their columns. -/
theorem resolve_exact (source : String) :
    (∀ offset, (resolve source offset).Resolves source offset) ∧
    ∀ first second, Boundary source first → Boundary source second →
      (first < second ↔ toLex ((resolve source first).line, (resolve source first).column)
        < toLex ((resolve source second).line, (resolve source second).column)) := by
  refine ⟨resolves_resolve source, fun first second here there => ?_⟩
  have lower := marks_resolve source first
  have upper := marks_resolve source second
  -- A boundary is looked up without being moved, so its line and column lead back to it.
  have ordered := Source.offsetAt_lt_iff lower.line upper.line lower.column upper.column
  rw [← lower.offset, ← upper.offset, here.offset_resolve, there.offset_resolve] at ordered
  rw [ordered, Prod.Lex.toLex_lt_toLex]

example : [3, 8, 1, 99].map (resolve "é = 1\nab")
    = [⟨3, 0, 2⟩, ⟨8, 1, 1⟩, ⟨0, 0, 0⟩, ⟨9, 1, 2⟩] := by
  decide +kernel

end Position

end Primer
