import Primer.Proofs.Source.Positions

/-!
# Excerpts are exact

An excerpt shows the lines that a span touches and no other, each behind its number, and has carets
under the characters of the span and no other. A span that covers nothing on its first line, because
it is empty or starts at the end of the line, is pointed at by one caret.

## Main result

`excerpt_exact`: for every source and every span, also one that is reversed, lies outside the source
or has an end inside a character.

What is shown is stated in bytes, what is drawn in columns. The two are brought together line by
line: on the first line the span starts at a column and on all others before the line, on the last
line it stops at a column and on all others behind the line.
-/

namespace Primer

namespace Source

/-- The character in this place of the source stands between the two positions. -/
structure Covers (source : String) (first last : Position) (number column : Nat) : Prop where
  inside : column < (lineAt source number).length
  starts : first.offset ≤ offsetAt source number column
  stops : offsetAt source number column < last.offset

/-- A caret belongs under the characters that are covered, and if the first line has none of them,
under the column where the span starts. -/
def Marked (source : String) (first last : Position) (number column : Nat) : Prop :=
  Covers source first last number column ∨
    number = first.line ∧ column = first.column ∧ ∀ other, ¬Covers source first last number other

/-- Blanks, and carets under exactly the columns given, behind a margin. Nothing stands behind the
last caret. -/
structure CaretRow (margin : Nat) (columns : Nat → Prop) (row : List Char) : Prop where
  drawn : ∀ c ∈ row, c = ' ' ∨ c = '^'
  carets : ∀ place, row[place]? = some '^' ↔ ∃ column, place = margin + column ∧ columns column
  ends : row.getLast? = some '^'

/-- The width of the greatest line number. -/
def gutterWidth (last : Position) : Nat :=
  (toString (last.line + 1)).length

/-- A line behind its number, which is counted from one and stands to the right. -/
def numberedLine (source : String) (last : Position) (number : Nat) : List Char :=
  (toString (number + 1)).toList.leftpad (gutterWidth last) ' ' ++ " | ".toList ++
    lineAt source number

/-- The rows for one line of an excerpt. -/
inductive Shows (source : String) (first last : Position) (number : Nat) :
    List (List Char) → Prop
  | plain (none : ∀ column, ¬Marked source first last number column) :
      Shows source first last number [numberedLine source last number]
  | pointedAt {row : List Char} (some : ∃ column, Marked source first last number column)
      (carets : CaretRow (gutterWidth last + 3) (Marked source first last number) row) :
      Shows source first last number [numberedLine source last number, row]

variable {source : String} {first last : Position} {number : Nat}

/-! ### Columns and bytes -/

/-- On each line the covered characters stand from one column up to another. -/
theorem covers_iff (starts : first.Marks source) (stops : last.Marks source)
    (after : first.line ≤ number) (before : number ≤ last.line) (column : Nat) :
    Covers source first last number column ↔
      (if number = first.line then first.column else 0) ≤ column ∧
        column < if number = last.line then last.column else (lineAt source number).length := by
  have inside := Nat.lt_of_le_of_lt before stops.line
  have shape : Covers source first last number column ↔
      column < (lineAt source number).length ∧ first.offset ≤ offsetAt source number column ∧
        offsetAt source number column < last.offset :=
    ⟨fun covers => ⟨covers.inside, covers.starts, covers.stops⟩, fun ⟨a, b, c⟩ => ⟨a, b, c⟩⟩
  rw [shape, starts.offset, stops.offset]
  by_cases within : column < (lineAt source number).length
  · rw [← Nat.not_lt, offsetAt_lt_iff inside starts.line within.le starts.column,
      offsetAt_lt_iff inside stops.line within.le stops.column]
    split <;> split <;> omega
  · have bound := stops.column
    split <;> split <;> grind

/-! ### Rows -/

/-- Blanks and then carets, of which there is one at least. -/
theorem caretRow_replicate (margin left count : Nat) :
    CaretRow margin (fun column => left ≤ column ∧ column ≤ left + count)
      (List.replicate (margin + left) ' ' ++ List.replicate (count + 1) '^') := by
  constructor
  case drawn =>
    intro c member
    rcases List.mem_append.mp member with blank | caret
    · exact .inl (List.eq_of_mem_replicate blank)
    · exact .inr (List.eq_of_mem_replicate caret)
  case carets =>
    intro place
    rw [List.getElem?_append, List.length_replicate]
    split
    next blank =>
      refine iff_of_false (by simp [blank]) ?_
      rintro ⟨column, rfl, after, -⟩
      omega
    next beyond =>
      have caret : (List.replicate (count + 1) '^')[place - (margin + left)]? = some '^' ↔
          place - (margin + left) < count + 1 := by simp [List.getElem?_replicate]
      rw [caret]
      constructor
      · intro short
        exact ⟨place - margin, by omega, by omega, by omega⟩
      · rintro ⟨column, rfl, after, before⟩
        omega
  case ends => simp [List.replicate_succ']

theorem CaretRow.congr {margin : Nat} {columns columns' : Nat → Prop} {row : List Char}
    (carets : CaretRow margin columns row) (same : ∀ column, columns column ↔ columns' column) :
    CaretRow margin columns' row :=
  (funext fun column => propext (same column) : columns = columns') ▸ carets

theorem toList_toString (n : Nat) : (toString n).toList = Decimal.digits n := by
  simp [toString, Nat.repr, Decimal.digits]

theorem numberedLine_eq (source : String) (last : Position) (number : Nat) :
    numberedLine source last number =
      rightAligned (Decimal.digits (last.line + 1)).length (Decimal.digits (number + 1)) ++
        " | ".toList ++ lineAt source number := by
  rw [numberedLine, gutterWidth, ← String.length_toList, toList_toString, toList_toString]
  rfl

/-- The rows drawn for a line are the ones that show it. -/
theorem shows_excerptRows (starts : first.Marks source) (stops : last.Marks source)
    (after : first.line ≤ number) (before : number ≤ last.line) :
    Shows source first last number (excerptRows (Decimal.digits (last.line + 1)).length first last
      (lineAt source number) number) := by
  have covers := covers_iff starts stops after before
  have width : gutterWidth last = (Decimal.digits (last.line + 1)).length := by
    rw [gutterWidth, ← String.length_toList, toList_toString]
  rw [excerptRows, ← numberedLine_eq, ← width]
  generalize left_eq : (if number = first.line then first.column else 0) = left at covers ⊢
  generalize (if number = last.line then last.column else (lineAt source number).length) = right
    at covers ⊢
  rw [caretLine]
  split
  next some =>
    have here : Covers source first last number left := (covers left).mpr ⟨Nat.le_refl _, some⟩
    have marked (column : Nat) : left ≤ column ∧ column ≤ left + (right - left - 1) ↔
        Marked source first last number column := by
      constructor
      · intro between
        exact .inl ((covers column).mpr ⟨between.1, by omega⟩)
      · rintro (covered | ⟨-, -, none⟩)
        · have := (covers column).mp covered
          omega
        · exact absurd here (none left)
    refine .pointedAt ⟨left, .inl here⟩ ?_
    have row := (caretRow_replicate (gutterWidth last + 3) left (right - left - 1)).congr marked
    rwa [show right - left - 1 + 1 = right - left by omega] at row
  next empty =>
    have none (column : Nat) : ¬Covers source first last number column := by
      rw [covers]
      omega
    by_cases top : number = first.line
    · rw [if_pos top] at left_eq
      have marked (column : Nat) : left ≤ column ∧ column ≤ left + 0 ↔
          Marked source first last number column := by
        constructor
        · intro here
          exact .inr ⟨top, by omega, none⟩
        · rintro (covered | ⟨-, rfl, -⟩)
          · exact absurd covered (none column)
          · omega
      rw [if_pos (decide_eq_true top)]
      refine .pointedAt ⟨left, (marked left).mp ⟨Nat.le_refl _, Nat.le_refl _⟩⟩ ?_
      exact (caretRow_replicate (gutterWidth last + 3) left 0).congr marked
    · rw [if_neg (by simpa using top)]
      refine .plain fun column => ?_
      rintro (covered | ⟨same, -⟩)
      · exact none column covered
      · exact top same

/-- The lines between two others, with their numbers. -/
theorem mem_touched {top bottom : Nat} {text : List Char}
    (member : (text, number) ∈ (((lines source.toList).drop top).take (bottom - top + 1)).zipIdx top) :
    top ≤ number ∧ number ≤ max top bottom ∧ text = lineAt source number := by
  obtain ⟨after, before, here⟩ := List.mem_zipIdx member
  rw [List.getElem_take, List.getElem_drop] at here
  rw [List.length_take, List.length_drop] at before
  refine ⟨after, by omega, ?_⟩
  have inside : number < (lines source.toList).length := by omega
  rw [here, lineAt, ← lines_eq_splitOn, List.getD_eq_getElem _ _ inside]
  congr 1
  omega

/-- The excerpt for a span consists of rows for the lines from the one in which the span starts to the
one in which it stops, both ends being brought back to a boundary inside the source. -/
theorem excerpt_exact (source : String) (span : Span) : ∃ first last : Position,
    IsGreatest {b | Boundary source b ∧ b ≤ min span.start source.utf8ByteSize} first.offset ∧
    IsGreatest {b | Boundary source b ∧ b ≤ min (max span.start span.stop) source.utf8ByteSize}
      last.offset ∧
    first.Marks source ∧ last.Marks source ∧ first.line ≤ last.line ∧
    ∃ rows : List (List (List Char)),
      excerpt source span = "\n".intercalate (rows.flatten.map String.ofList) ∧
      List.Forall₂ (Shows source first last)
        (List.range' first.line (last.line + 1 - first.line)) rows := by
  let first := Position.resolve source span.start
  let last := Position.resolve source (max span.start span.stop)
  have starts : first.Marks source := Position.marks_resolve ..
  have stops : last.Marks source := Position.marks_resolve ..
  have lower := Position.isGreatest_resolve source span.start
  have upper := Position.isGreatest_resolve source (max span.start span.stop)
  have ordered : first.line ≤ last.line := by
    -- Otherwise the span would stop at an earlier boundary than it starts at.
    have below : first.offset ≤ last.offset :=
      upper.2 ⟨lower.1.1, lower.1.2.trans (min_le_min_right _ (le_max_left _ _))⟩
    rw [starts.offset, stops.offset] at below
    by_contra! reversed
    exact absurd below (offsetAt_lt_of_line reversed starts.line.le).not_ge
  refine ⟨first, last, lower, upper, starts, stops, ordered, ?_⟩
  let touched := ((lines source.toList).drop first.line).take (last.line - first.line + 1)
  have count : touched.length = last.line + 1 - first.line := by
    have bound := stops.line
    rw [← lines_eq_splitOn] at bound
    rw [List.length_take, List.length_drop]
    omega
  let rows (line : List Char × Nat) : List (List Char) :=
    excerptRows (Decimal.digits (last.line + 1)).length first last line.1 line.2
  refine ⟨(touched.zipIdx first.line).map rows, ?_, ?_⟩
  · rw [excerpt, ← List.flatMap_def]
    rfl
  · rw [← count, ← List.zipIdx_map_snd, List.forall₂_map_left_iff, List.forall₂_map_right_iff]
    refine List.forall₂_same.mpr fun line member => ?_
    obtain ⟨after, before, text⟩ := mem_touched member
    rw [Nat.max_eq_right ordered] at before
    change Shows source first last line.2 (excerptRows _ first last line.1 line.2)
    rw [text]
    exact shows_excerptRows starts stops after before

example : excerpt "if é then\n\nend" ⟨4, 99⟩ =
    "1 | if é then\n       ^^^^^^\n2 | \n3 | end\n    ^^^" := by
  decide +kernel

end Source

end Primer
