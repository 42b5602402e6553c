import Primer.Proofs.Lexing.Tiling

/-!
# Reading through a window

A source can be read one character at a time, out of a list of its characters with their offsets, with
a window of two: the current character and the one that comes next. A cursor shows the same window, and
to advance it is to read one more character.

## Main result

`Reader.simulates`: a reader that is opened on a source shows what the cursor at its start shows. Wherever
the lexer gets to from a cursor, the reader gets to by reading as many characters, which are those in
between. At the end of input it stays where it is.

## Proof strategy

Each cursor is one state of the reader, `Cursor.reader`. One read goes from the state of a cursor to the
state of the next (`Reader.read_reader`), where the offset behind the last character is not in the list
and comes from the length of that character. Runs of characters are then runs of reads.
-/

namespace Primer

/-- What is left of a list of characters with their offsets, and the window on what is read of it. -/
structure Reader where
  window : Window
  input : List (Nat × Char)

namespace Reader

/-- Reads one character more into the window. The result is the character that leaves it. -/
def read (reader : Reader) : Option Char × Reader :=
  let window := reader.window
  match reader.input with
  | (place, c) :: input =>
    (window.current, ⟨⟨window.nextPosition, place, window.next, some c⟩, input⟩)
  | [] =>
    let length := (window.next.map Char.utf8Size).getD 0
    (window.current, ⟨⟨window.nextPosition, window.nextPosition + length, window.next, none⟩, []⟩)

/-- The characters of a text that stands at an offset, with their offsets. -/
def placed (offset : Nat) : List Char → List (Nat × Char)
  | [] => []
  | c :: rest => (offset, c) :: placed (offset + c.utf8Size) rest

/-- The first two characters of a source are read into an empty window. -/
def start (source : String) : Reader :=
  let empty : Reader := ⟨⟨0, 0, none, none⟩, placed 0 source.toList⟩
  empty.read.2.read.2

/-- Reads several characters. -/
def readAll : Nat → Reader → List (Option Char) × Reader
  | 0, reader => ([], reader)
  | count + 1, reader =>
    let (c, reader) := reader.read
    let (others, reader) := readAll count reader
    (c :: others, reader)

/-- A loop that reads characters as long as the current one satisfies `p`, and collects them. -/
inductive Collects (p : Char → Bool) : Reader → List Char → Reader → Prop
  | stop {reader : Reader} (stops : ∀ c ∈ reader.window.current, p c = false) :
      Collects p reader [] reader
  | next {reader after : Reader} {c : Char} {others : List Char}
      (here : reader.window.current = some c) (holds : p c = true)
      (rest : Collects p reader.read.2 others after) : Collects p reader (c :: others) after

end Reader

/-- The state of a reader whose window stands at a cursor. -/
def Cursor.reader (cursor : Cursor) : Reader :=
  let behind := cursor.advance.advance
  ⟨cursor.window, Reader.placed behind.offset behind.rest⟩

/-- A scan goes on from where it starts, whatever it reads. -/
theorem reaches_scan (cursor : Cursor) : cursor.Reaches (Lexer.scan cursor).2 := by
  rcases read : Lexer.scan cursor with ⟨scanned, after⟩
  have layout := reaches_skipLayout cursor
  cases progress_of_scan read with
  | finished => exact layout
  | read passes _ skips => exact layout.trans (passes.1.trans skips.reaches)

namespace Reader

theorem start_eq (source : String) : start source = (Cursor.start source).reader := by
  unfold start Cursor.reader Cursor.start
  match source.toList with
  | [] => rfl
  | [_] => rfl
  | _ :: _ :: _ => rfl

/-- One read is one step of the cursor. -/
theorem read_reader (cursor : Cursor) :
    cursor.reader.read = (cursor.rest.head?, cursor.advance.reader) := by
  match cursor with
  | ⟨_, []⟩ => rfl
  | ⟨_, [_]⟩ => rfl
  | ⟨_, [_, _]⟩ => rfl
  | ⟨_, _ :: _ :: _ :: _⟩ => rfl

theorem readAll_reader (taken : List Char) {cursor after : Cursor}
    (text : cursor.rest = taken ++ after.rest)
    (offset : after.offset = cursor.offset + Text.byteLength taken) :
    cursor.reader.readAll taken.length = (taken.map some, after.reader) := by
  induction taken generalizing cursor with
  | nil =>
    obtain rfl : after = cursor := by
      cases after
      cases cursor
      simp_all [Text.byteLength]
    rfl
  | cons c taken ih =>
    obtain ⟨place, rest⟩ := cursor
    obtain rfl : rest = c :: (taken ++ after.rest) := text
    have others := @ih ⟨place + c.utf8Size, taken ++ after.rest⟩ rfl (by
      rw [offset, Text.byteLength, Nat.add_assoc])
    simp only [List.length_cons, readAll, read_reader, List.head?_cons, Cursor.advance, others,
      List.map_cons]

/-- The loop takes the longest run of characters, as the cursor does. -/
theorem collects_iff {p : Char → Bool} {cursor : Cursor} {taken : List Char} {after : Reader} :
    Collects p cursor.reader taken after ↔
      taken = cursor.rest.takeWhile p ∧ after = (cursor.dropWhile p).reader := by
  obtain ⟨place, rest⟩ := cursor
  induction rest generalizing place taken with
  | nil =>
    constructor
    · intro collects
      cases collects with
      | stop => exact ⟨rfl, rfl⟩
      | next here => cases here
    · rintro ⟨rfl, rfl⟩
      exact .stop nofun
  | cons c rest ih =>
    have further {taken : List Char} := @ih taken (place + c.utf8Size)
    have moved : (Cursor.reader ⟨place, c :: rest⟩).read.2
        = Cursor.reader ⟨place + c.utf8Size, rest⟩ := by
      rw [read_reader]
      rfl
    by_cases holds : p c = true
    · have run : (Cursor.mk place (c :: rest)).dropWhile p
          = (Cursor.mk (place + c.utf8Size) rest).dropWhile p := by
        simp [Cursor.dropWhile, holds, Text.byteLength, Nat.add_assoc]
      rw [run, List.takeWhile_cons_of_pos holds]
      constructor
      · intro collects
        cases collects with
        | stop stops => exact absurd (stops c rfl) (by simp [holds])
        | next here _ others =>
          obtain rfl := Option.some.inj here
          rw [moved] at others
          obtain ⟨rfl, rfl⟩ := further.mp others
          exact ⟨rfl, rfl⟩
      · rintro ⟨rfl, rfl⟩
        refine .next rfl holds ?_
        rw [moved]
        exact further.mpr ⟨rfl, rfl⟩
    · have run : (Cursor.mk place (c :: rest)).dropWhile p = ⟨place, c :: rest⟩ := by
        simp [Cursor.dropWhile, holds, Text.byteLength]
      rw [run, List.takeWhile_cons_of_neg holds]
      constructor
      · intro collects
        cases collects with
        | stop => exact ⟨rfl, rfl⟩
        | next here holds' =>
          obtain rfl := Option.some.inj here
          exact absurd holds' holds
      · rintro ⟨rfl, rfl⟩
        refine .stop fun d here => ?_
        obtain rfl := Option.some.inj here
        simpa using holds

/-- Readers and cursors keep in step: at the start of a source, from one character to the next, over a
run of characters, and over all that one scan takes, be it a token or an error. -/
theorem simulates (source : String) :
    start source = (Cursor.start source).reader ∧ ∀ cursor : Cursor,
      cursor.reader.read = (cursor.rest.head?, cursor.advance.reader) ∧
      (∀ p taken after, Collects p cursor.reader taken after ↔
        taken = cursor.rest.takeWhile p ∧ after = (cursor.dropWhile p).reader) ∧
      ∃ taken, cursor.rest = taken ++ (Lexer.scan cursor).2.rest ∧
        cursor.reader.readAll taken.length = (taken.map some, (Lexer.scan cursor).2.reader) := by
  refine ⟨start_eq source, fun cursor => ⟨read_reader cursor, fun _ _ _ => collects_iff, ?_⟩⟩
  obtain ⟨taken, text, offset⟩ := reaches_scan cursor
  exact ⟨taken, text, readAll_reader taken text offset⟩

end Reader

end Primer
