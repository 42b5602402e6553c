import Primer.Proofs.Parsing.SourceSpans
import Primer.Source.Excerpt

/-!
# Positions and lines

An offset is brought back to the greatest boundary that is not above it. The line is searched in the
list of the offsets at which lines start, as the last one that is not above the boundary: the starts
before a boundary are those of the text before it, as many as there are line feeds. So the line and
column are those of the boundary: going to the same line and over the same number of its characters
leads to the same byte.

Lines are what the line feeds separate. They are compared with the splitting of lists of the library,
and places in them with the number of bytes in front.
-/

namespace Primer

/-! ### Boundaries -/

/-- A boundary stands between any two parts of the source. -/
theorem Boundary.of_parts {source : String} {taken rest : List Char}
    (parts : source.toList = taken ++ rest) : Boundary source (Text.byteLength taken) := by
  have reaches : (Cursor.start source).Reaches ⟨Text.byteLength taken, rest⟩ :=
    ⟨taken, parts, (Nat.zero_add _).symm⟩
  exact isValid_of_reaches reaches

theorem boundary_iff {source : String} {offset : Nat} :
    Boundary source offset ↔ Source.isBoundary offset source.toList = true := by
  rw [Source.isBoundary_iff]
  constructor
  · exact Boundary.exists_parts
  · rintro ⟨taken, rest, parts, rfl⟩
    exact .of_parts parts

/-- By induction on the offset, which is brought back byte by byte. -/
theorem Source.isGreatest_floorBoundary (text : List Char) (offset : Nat) :
    IsGreatest {b | isBoundary b text = true ∧ b ≤ offset} (floorBoundary text offset) := by
  induction offset with
  | zero => exact ⟨⟨isBoundary_iff.mpr ⟨[], text, rfl, rfl⟩, Nat.le_refl 0⟩, fun _ other => other.2⟩
  | succ offset ih =>
    obtain ⟨⟨boundary, below⟩, greatest⟩ := ih
    rw [floorBoundary]
    split
    next here => exact ⟨⟨here, Nat.le_refl _⟩, fun _ other => other.2⟩
    next inside =>
      refine ⟨⟨boundary, Nat.le_succ_of_le below⟩, fun b other => greatest ⟨other.1, ?_⟩⟩
      have different : b ≠ offset + 1 := fun same => inside (same ▸ other.1)
      exact Nat.le_of_lt_succ (Nat.lt_of_le_of_ne other.2 different)

/-- The boundary that an offset is brought back to is the greatest one not above it. -/
theorem Position.isGreatest_resolve (source : String) (offset : Nat) :
    IsGreatest {b | Boundary source b ∧ b ≤ min offset source.utf8ByteSize}
      (resolve source offset).offset := by
  simp only [boundary_iff]
  exact Source.isGreatest_floorBoundary source.toList (min offset source.utf8ByteSize)

/-! ### Lines -/

namespace Source

theorem exists_lines (chars : List Char) : ∃ line others, lines chars = line :: others := by
  cases chars with
  | nil => exact ⟨[], [], rfl⟩
  | cons c chars =>
    rw [lines]
    split
    · exact ⟨[], lines chars, rfl⟩
    · split <;> exact ⟨_, _, rfl⟩

theorem lines_feed (chars : List Char) : lines ('\n' :: chars) = [] :: lines chars := by
  rw [lines, if_pos rfl]

/-- A character that is no line feed belongs to the first line. -/
theorem lines_cons {c : Char} {chars line : List Char} {others : List (List Char)}
    (inside : c ≠ '\n') (split : lines chars = line :: others) :
    lines (c :: chars) = (c :: line) :: others := by
  rw [lines, if_neg inside, split]

theorem lines_eq_splitOn (chars : List Char) : lines chars = chars.splitOn '\n' := by
  induction chars with
  | nil => rfl
  | cons c chars ih =>
    rw [List.splitOn_eq_splitOnP, List.splitOnP_cons_eq_if_modifyHead, ← List.splitOn_eq_splitOnP,
      ← ih]
    by_cases feed : c = '\n'
    · subst feed
      rw [lines_feed, if_pos (beq_self_eq_true _)]
    · obtain ⟨line, others, split⟩ := exists_lines chars
      rw [lines_cons feed split, split, if_neg (by simpa using feed), List.modifyHead_cons]

/-- Where two texts are put together, the last line of the first goes on as the first line of the
second. -/
theorem lines_append (first second : List Char) : ∃ before last next behind,
    lines first = before ++ [last] ∧ lines second = next :: behind ∧
      lines (first ++ second) = before ++ (last ++ next) :: behind := by
  induction first with
  | nil =>
    obtain ⟨next, behind, split⟩ := exists_lines second
    exact ⟨[], [], next, behind, rfl, split, split⟩
  | cons c first ih =>
    obtain ⟨before, last, next, behind, split, split', joined⟩ := ih
    by_cases feed : c = '\n'
    · subst feed
      refine ⟨[] :: before, last, next, behind, ?_, split', ?_⟩
      · rw [lines_feed, split, List.cons_append]
      · rw [List.cons_append, lines_feed, joined, List.cons_append]
    · cases before with
      | nil =>
        exact ⟨[], c :: last, next, behind, lines_cons feed split, split', lines_cons feed joined⟩
      | cons line before =>
        exact ⟨(c :: line) :: before, last, next, behind, lines_cons feed split, split',
          lines_cons feed joined⟩

/-- The bytes of lines, each with a line feed behind it. -/
def extent (lines : List (List Char)) : Nat :=
  (lines.map fun line => Text.byteLength line + 1).sum

@[simp] theorem extent_nil : extent [] = 0 := rfl

@[simp] theorem extent_append (before behind : List (List Char)) :
    extent (before ++ behind) = extent before + extent behind := by
  simp [extent]

@[simp] theorem extent_cons (line : List Char) (lines : List (List Char)) :
    extent (line :: lines) = Text.byteLength line + 1 + extent lines := by
  simp [extent]

/-- The last line has no line feed behind it. -/
theorem extent_lines (chars : List Char) : extent (lines chars) = Text.byteLength chars + 1 := by
  induction chars with
  | nil => rfl
  | cons c chars ih =>
    by_cases feed : c = '\n'
    · subst feed
      have one : '\n'.utf8Size = 1 := rfl
      rw [lines_feed, extent_cons, ih, Text.byteLength, Text.byteLength, one]
      omega
    · obtain ⟨line, others, split⟩ := exists_lines chars
      rw [split, extent_cons] at ih
      rw [lines_cons feed split, extent_cons, Text.byteLength, Text.byteLength]
      omega

/-- What stands behind the last line feed of a text. -/
def lastLine (chars : List Char) : List Char :=
  chars.rtakeWhile (· ≠ '\n')

theorem lastLine_feed (chars : List Char) : lastLine (chars ++ ['\n']) = [] := by
  simp [lastLine]

theorem lastLine_concat {c : Char} (inside : c ≠ '\n') (chars : List Char) :
    lastLine (chars ++ [c]) = lastLine chars ++ [c] := by
  simp [lastLine, inside]

/-- The line behind the last line feed is the last one. -/
theorem exists_lines_lastLine (chars : List Char) :
    ∃ before, lines chars = before ++ [lastLine chars] ∧ before.length = chars.count '\n' := by
  induction chars using List.reverseRecOn with
  | nil => exact ⟨[], rfl, rfl⟩
  | append_singleton chars c ih =>
    obtain ⟨before, split, count⟩ := ih
    obtain ⟨before', last', next, behind, split', alone, joined⟩ := lines_append chars [c]
    rw [split] at split'
    obtain ⟨rfl, same⟩ := List.append_inj' split' rfl
    cases same
    rw [joined]
    by_cases feed : c = '\n'
    · subst feed
      obtain ⟨rfl, rfl⟩ : [] = next ∧ [[]] = behind := by simpa [lines] using alone
      exact ⟨before ++ [lastLine chars], by simp [lastLine_feed], by simp [count]⟩
    · obtain ⟨rfl, rfl⟩ : [c] = next ∧ [] = behind := by simpa [lines, feed] using alone
      exact ⟨before, by rw [lastLine_concat feed], by simp [count, feed]⟩

/-! ### Where lines start -/

theorem startsFrom_append (offset : Nat) (first second : List Char) :
    startsFrom offset (first ++ second)
      = startsFrom offset first ++ startsFrom (offset + Text.byteLength first) second := by
  induction first generalizing offset with
  | nil => rfl
  | cons c first ih =>
    simp only [List.cons_append, startsFrom, ih, Text.byteLength, Nat.add_assoc]
    split <;> simp

/-- Lines start behind the offset and not behind the text. -/
theorem bounds_of_mem_startsFrom {offset start : Nat} {chars : List Char}
    (member : start ∈ startsFrom offset chars) :
    offset < start ∧ start ≤ offset + Text.byteLength chars := by
  induction chars generalizing offset with
  | nil => cases member
  | cons c chars ih =>
    have positive := c.utf8Size_pos
    have behind (later : start ∈ startsFrom (offset + c.utf8Size) chars) :
        offset < start ∧ start ≤ offset + Text.byteLength (c :: chars) := by
      have bounds := ih later
      rw [Text.byteLength]
      omega
    rw [startsFrom] at member
    split at member
    · rcases List.mem_cons.mp member with rfl | later
      · rw [Text.byteLength]
        omega
      · exact behind later
    · exact behind member

/-- There are as many line starts as line feeds. -/
theorem length_startsFrom (offset : Nat) (chars : List Char) :
    (startsFrom offset chars).length = chars.count '\n' := by
  induction chars generalizing offset with
  | nil => rfl
  | cons c chars ih =>
    rw [startsFrom, List.count_cons]
    by_cases feed : c = '\n'
    · simp [feed, ih]
    · simp [feed, ih]

/-- The last of them is where the last line starts. -/
theorem getLast?_starts (chars : List Char) :
    ∃ before, chars = before ++ lastLine chars ∧
      (0 :: startsFrom 0 chars).getLast? = some (Text.byteLength before) := by
  induction chars using List.reverseRecOn with
  | nil => exact ⟨[], rfl, rfl⟩
  | append_singleton chars c ih =>
    obtain ⟨before, parts, last⟩ := ih
    rw [startsFrom_append, Nat.zero_add]
    by_cases feed : c = '\n'
    · -- A line starts at the very end.
      subst feed
      refine ⟨chars ++ ['\n'], by simp [lastLine_feed], ?_⟩
      simp [startsFrom, Text.byteLength, List.getLast?_cons]
    · refine ⟨before, ?_, ?_⟩
      · rw [lastLine_concat feed, ← List.append_assoc, ← parts]
      · simpa [startsFrom, feed] using last

/-- The starts that are not above a boundary are those of the lines before it. -/
theorem takeWhile_lineStarts {source : String} {before behind : List Char}
    (parts : source.toList = before ++ behind) :
    (lineStarts source).takeWhile (· ≤ Text.byteLength before) = 0 :: startsFrom 0 before := by
  have fits : ∀ start ∈ 0 :: startsFrom 0 before, decide (start ≤ Text.byteLength before) = true := by
    intro start member
    rcases List.mem_cons.mp member with rfl | later
    · simp
    · simpa using (bounds_of_mem_startsFrom later).2
  have stops : (startsFrom (Text.byteLength before) behind).takeWhile
      (· ≤ Text.byteLength before) = [] := by
    rw [List.takeWhile_eq_nil_iff]
    intro some
    have above := (bounds_of_mem_startsFrom (List.getElem_mem some)).1
    simpa using above
  rw [lineStarts, parts, startsFrom_append, Nat.zero_add, ← List.cons_append,
    List.takeWhile_append_of_pos fits, stops, List.append_nil]

/-- The line of a boundary is found by a search among the starts. -/
theorem getLast?_lineStarts {source : String} {before behind : List Char}
    (parts : source.toList = before ++ behind) :
    ∃ earlier, before = earlier ++ lastLine before ∧
      ((lineStarts source).takeWhile (· ≤ Text.byteLength before)).zipIdx.getLast?
        = some (Text.byteLength earlier, before.count '\n') := by
  obtain ⟨earlier, split, last⟩ := getLast?_starts before
  refine ⟨earlier, split, ?_⟩
  rw [takeWhile_lineStarts parts, List.getLast?_zipIdx, last]
  simp [length_startsFrom]

/-! ### Slices -/

theorem slice_append (start stop offset : Nat) (first second : List Char) :
    slice start stop offset (first ++ second)
      = slice start stop offset first
        ++ slice start stop (offset + Text.byteLength first) second := by
  induction first generalizing offset with
  | nil => rfl
  | cons c first ih =>
    simp only [List.cons_append, slice, ih, Text.byteLength, Nat.add_assoc]
    split <;> simp

theorem slice_eq_nil {start stop offset : Nat} {text : List Char}
    (outside : offset + Text.byteLength text ≤ start ∨ stop ≤ offset) :
    slice start stop offset text = [] := by
  induction text generalizing offset with
  | nil => rfl
  | cons c text ih =>
    have positive := c.utf8Size_pos
    rw [Text.byteLength] at outside
    rw [slice, if_neg (by omega), ih (by omega)]

theorem slice_eq_self {start stop offset : Nat} {text : List Char} (low : start ≤ offset)
    (high : offset + Text.byteLength text ≤ stop) : slice start stop offset text = text := by
  induction text generalizing offset with
  | nil => rfl
  | cons c text ih =>
    have positive := c.utf8Size_pos
    rw [Text.byteLength] at high
    rw [slice, if_pos (by omega), ih (by omega) (by omega)]

/-- A slice between two boundaries is what stands between them. -/
theorem slice_parts (earlier line behind : List Char) :
    slice (Text.byteLength earlier) (Text.byteLength (earlier ++ line)) 0 (earlier ++ line ++ behind)
      = line := by
  rw [slice_append, slice_append, slice_eq_nil (by simp),
    slice_eq_self (by simp) (by simp [Text.byteLength_append]), slice_eq_nil (by simp)]
  simp

end Source

/-- A source is looked up at the end of some part of it. The line is the number of line feeds there, and
the column the number of characters behind the last of them. -/
theorem Position.resolve_eq (source : String) (offset : Nat) :
    ∃ before behind, source.toList = before ++ behind ∧
      resolve source offset
        = ⟨Text.byteLength before, before.count '\n', (Source.lastLine before).length⟩ := by
  have boundary := (Source.isGreatest_floorBoundary source.toList (min offset source.utf8ByteSize)).1.1
  obtain ⟨before, behind, parts, here⟩ := Source.isBoundary_iff.mp boundary
  obtain ⟨earlier, split, found⟩ := Source.getLast?_lineStarts parts
  refine ⟨before, behind, parts, ?_⟩
  have column : Source.slice (Text.byteLength earlier) (Text.byteLength before) 0 source.toList
      = Source.lastLine before := by
    conv_lhs => rw [parts, split]
    exact Source.slice_parts earlier (Source.lastLine before) behind
  simp only [resolve, locate, here, found, Option.getD_some, column]

namespace Source

/-! ### Places in lines -/

/-- A line of a source, by its number. -/
def lineAt (source : String) (number : Nat) : List Char :=
  (source.toList.splitOn '\n').getD number []

/-- The offset at which character `column` of line `number` starts, or at which the line ends. -/
def offsetAt (source : String) (number column : Nat) : Nat :=
  extent ((source.toList.splitOn '\n').take number) +
    Text.byteLength ((lineAt source number).take column)

variable {source : String} {number number' column column' : Nat}

/-- Characters further on in a line stand at greater offsets. -/
theorem offsetAt_lt_of_column (further : column < column')
    (inside : column' ≤ (lineAt source number).length) :
    offsetAt source number column < offsetAt source number column' := by
  obtain ⟨between, rfl⟩ := Nat.exists_eq_add_of_lt further
  rw [offsetAt, offsetAt, Nat.add_assoc column, List.take_add, Text.byteLength_append]
  have more : 0 < ((lineAt source number).drop column).length := by
    rw [List.length_drop]
    omega
  obtain ⟨c, rest, behind⟩ := List.exists_cons_of_length_pos more
  have positive := c.utf8Size_pos
  rw [behind, List.take_succ_cons, Text.byteLength]
  omega

/-- So do those of lines further down, which are behind a line feed. -/
theorem offsetAt_lt_of_line (below : number < number')
    (inside : number' ≤ (source.toList.splitOn '\n').length) :
    offsetAt source number column < offsetAt source number' column' := by
  obtain ⟨between, rfl⟩ := Nat.exists_eq_add_of_lt below
  have more : 0 < ((source.toList.splitOn '\n').drop number).length := by
    rw [List.length_drop]
    omega
  obtain ⟨line, others, behind⟩ := List.exists_cons_of_length_pos more
  have here : lineAt source number = line := by
    rw [lineAt, List.getD_eq_getElem?_getD, ← List.head?_drop, behind]
    rfl
  have whole : Text.byteLength (line.take column) ≤ Text.byteLength line := by
    conv_rhs => rw [← List.take_append_drop column line, Text.byteLength_append]
    exact Nat.le_add_right _ _
  rw [offsetAt, offsetAt, here, Nat.add_assoc number, List.take_add, behind, List.take_succ_cons,
    extent_append, extent_cons]
  omega

/-- Places are ordered by their lines, and on one line by their columns. -/
theorem offsetAt_lt_iff (inside : number < (source.toList.splitOn '\n').length)
    (inside' : number' < (source.toList.splitOn '\n').length)
    (within : column ≤ (lineAt source number).length)
    (within' : column' ≤ (lineAt source number').length) :
    offsetAt source number column < offsetAt source number' column' ↔
      number < number' ∨ number = number' ∧ column < column' := by
  constructor
  · intro less
    by_contra! others
    rcases Nat.lt_or_eq_of_le others.1 with above | rfl
    · exact absurd less (offsetAt_lt_of_line above inside.le).not_gt
    · rcases Nat.lt_or_eq_of_le (others.2 rfl) with before | rfl
      · exact absurd less (offsetAt_lt_of_column before within).not_gt
      · exact absurd less (Nat.lt_irrefl _)
  · rintro (above | ⟨rfl, before⟩)
    · exact offsetAt_lt_of_line above inside'.le
    · exact offsetAt_lt_of_column before within'

end Source

/-! ### The line and column of an offset -/

/-- The line and column are those of the offset. -/
structure Position.Marks (source : String) (here : Position) : Prop where
  line : here.line < (source.toList.splitOn '\n').length
  column : here.column ≤ (Source.lineAt source here.line).length
  offset : here.offset = Source.offsetAt source here.line here.column

/-- Resolving an offset gives the line and column of the boundary it is brought back to. -/
theorem Position.marks_resolve (source : String) (offset : Nat) :
    (resolve source offset).Marks source := by
  obtain ⟨taken, rest, parts, resolved⟩ := resolve_eq source offset
  obtain ⟨before, split, count⟩ := Source.exists_lines_lastLine taken
  obtain ⟨before', last', next, behind, split', -, joined⟩ := Source.lines_append taken rest
  rw [split] at split'
  obtain ⟨rfl, same⟩ := List.append_inj' split' rfl
  cases same
  rw [← parts, Source.lines_eq_splitOn] at joined
  have extent := Source.extent_lines taken
  rw [resolved, ← count]
  constructor
  case line => simp [joined]
  case column => simp [Source.lineAt, joined]
  case offset =>
    have lines : (source.toList.splitOn '\n').take before.length = before := by simp [joined]
    have line : (Source.lineAt source before.length).take (Source.lastLine taken).length
        = Source.lastLine taken := by
      simp [Source.lineAt, joined]
    rw [split, Source.extent_append, Source.extent_cons, Source.extent_nil] at extent
    change Text.byteLength taken
      = Source.offsetAt source before.length (Source.lastLine taken).length
    rw [Source.offsetAt, lines, line]
    omega

end Primer
