import Primer.Proofs.Text.Decoding
import Primer.Session.Stream

/-!
# Programs one behind the other

A stream may carry several programs, each followed by the line that ends it, and anything at all behind
the last of them. Reading programs off the stream gives exactly these programs and leaves exactly what
is behind them (`readPrograms_frames`).

A line is taken off a stream with its line feed and nothing more, and what a reader makes of it depends
on one thing, whether it is the mark of the end of a program (`readLines_fed`). What is read from a
program and the mark behind it follows by induction on the lines of the program, and what is read from
several of them by induction on the programs.
-/

namespace Primer.Stream

/-! ### Lines of a stream -/

/-- The next line ends with the first line feed. -/
theorem cutLine_feed {line : List UInt8} (whole : 10 ∉ line) (rest : List UInt8) :
    cutLine (line ++ 10 :: rest) = (line ++ [10], rest) := by
  induction line with
  | nil => rfl
  | cons byte line ih =>
    obtain ⟨other, others⟩ := not_or.mp (List.mem_cons.not.mp whole)
    rw [List.cons_append, cutLine, if_neg (Ne.symm other), ih others]
    rfl

/-- A line with its line feed. -/
def fed (line : List Char) : String :=
  String.ofList (line ++ ['\n'])

theorem encode_fed (line : List Char) :
    Text.encode (fed line) = Text.encode (String.ofList line) ++ [10] := by
  have feed : Text.encode (String.ofList ['\n']) = [10] := by
    rw [Text.encode_eq, String.toList_ofList]
    rfl
  rw [fed, String.ofList_append, Text.encode_append, feed]

/-- The bytes of a line are cut off as they are, because none before the last is a line feed. -/
theorem cutLine_encode {line : List Char} (whole : '\n' ∉ line) (rest : List UInt8) :
    cutLine (Text.encode (fed line) ++ rest) = (Text.encode (fed line), rest) := by
  rw [encode_fed, List.append_assoc, List.singleton_append]
  apply cutLine_feed
  apply Text.feed_not_mem_encode
  rwa [String.toList_ofList]

/-! ### The mark of the end of a program -/

/-- The line is the mark of the end of a program, apart from carriage returns and line feeds behind
it. -/
def IsMark (line : List Char) : Prop :=
  ∃ ends : List Char, line = endOfCode.toList ++ ends ∧ ∀ c ∈ ends, c = '\r' ∨ c = '\n'

private def isEnd (c : Char) : Bool :=
  c == '\r' || c == '\n'

private theorem dropLineEnd_ofList (line : List Char) :
    Text.dropLineEnd (String.ofList line) = String.ofList (line.rdropWhile isEnd) := by
  rw [Text.dropLineEnd, String.toList_ofList]
  rfl

theorem dropLineEnd_eq_endOfCode_iff {line : List Char} :
    Text.dropLineEnd (String.ofList line) = endOfCode ↔ IsMark line := by
  rw [dropLineEnd_ofList]
  constructor
  · intro same
    refine ⟨line.rtakeWhile isEnd, ?_, ?_⟩
    · rw [← same, String.toList_ofList, List.rdropWhile_append_rtakeWhile]
    · intro c member
      simpa [isEnd] using List.mem_rtakeWhile_imp member
  · rintro ⟨ends, rfl, each⟩
    -- Nothing more is dropped, because the mark itself ends in another character.
    have stays : endOfCode.toList.reverse.dropWhile isEnd = endOfCode.toList.reverse := by decide
    have gone : ∀ c ∈ ends.reverse, isEnd c = true := by simpa [isEnd] using each
    rw [List.rdropWhile, List.reverse_append, List.dropWhile_append_of_pos gone, stays,
      List.reverse_reverse, String.ofList_toList]

instance (line : List Char) : Decidable (IsMark line) :=
  decidable_of_iff _ dropLineEnd_eq_endOfCode_iff

/-- A line is the mark with its line feed if it is without. -/
theorem dropLineEnd_fed_eq_iff {line : List Char} :
    Text.dropLineEnd (fed line) = endOfCode ↔ IsMark line := by
  rw [← dropLineEnd_eq_endOfCode_iff, fed, dropLineEnd_ofList, dropLineEnd_ofList,
    List.rdropWhile_concat_pos _ _ _ (by decide)]

/-! ### Reading lines -/

/-- What is done with the next line: the mark ends the reading, and any other line is added to what
has been read. -/
theorem readLines_fed {line : List Char} (whole : '\n' ∉ line) (budget : Nat) (read : String)
    (rest : List UInt8) :
    readLines (budget + 1) read (Text.encode (fed line) ++ rest) =
      if IsMark line then (.ok read, rest) else readLines budget (read ++ fed line) rest := by
  have cut := cutLine_encode whole rest
  -- There is a line, so the stream is not at its end.
  obtain ⟨byte, bytes, more⟩ : ∃ byte bytes, Text.encode (fed line) ++ rest = byte :: bytes := by
    rw [encode_fed]
    exact List.exists_cons_of_ne_nil (by simp)
  rw [more] at cut ⊢
  simp only [readLines, cut, Text.decode_encode, dropLineEnd_fed_eq_iff]

/-- Lines are read one after the other, up to the mark. -/
theorem readLines_lines {lines : List (List Char)} {mark : List Char}
    (whole : ∀ line ∈ lines, '\n' ∉ line) (ordinary : ∀ line ∈ lines, ¬IsMark line)
    (wholeMark : '\n' ∉ mark) (ends : IsMark mark) {budget : Nat} (enough : lines.length < budget)
    (read : String) (rest : List UInt8) :
    readLines budget read
        (Text.encode (String.join (lines.map fed)) ++ (Text.encode (fed mark) ++ rest))
      = (.ok (read ++ String.join (lines.map fed)), rest) := by
  induction lines generalizing budget read with
  | nil =>
    obtain ⟨budget, rfl⟩ := Nat.exists_eq_add_of_le' enough
    simp [readLines_fed wholeMark, ends]
  | cons line lines ih =>
    obtain ⟨budget, rfl⟩ := Nat.exists_eq_add_of_le' (Nat.one_le_of_lt enough)
    obtain ⟨wholeLine, wholeOthers⟩ := List.forall_mem_cons.mp whole
    obtain ⟨ordinaryLine, ordinaryOthers⟩ := List.forall_mem_cons.mp ordinary
    have left : lines.length < budget := Nat.lt_of_succ_lt_succ enough
    rw [List.map_cons, String.join_cons, Text.encode_append, List.append_assoc,
      readLines_fed wholeLine, if_neg ordinaryLine, ih wholeOthers ordinaryOthers left,
      String.append_assoc]

/-! ### Texts of lines -/

/-- The text is empty or ends with a line feed. -/
def Terminated (text : List Char) : Prop :=
  text = [] ∨ text.getLast? = some '\n'

/-- Such a text is made of lines with a line feed behind each. -/
theorem Terminated.exists_lines {text : List Char} (terminated : Terminated text) :
    ∃ lines : List (List Char), text = lines.flatMap (· ++ ['\n']) ∧
      text.splitOn '\n' = lines ++ [[]] ∧ ∀ line ∈ lines, '\n' ∉ line := by
  rcases terminated with rfl | last
  · exact ⟨[], rfl, rfl, nofun⟩
  · -- The first line feed ends the first line, and the text behind it is shorter.
    obtain ⟨line, rest, rfl, whole⟩ := List.eq_append_cons_of_mem (List.mem_of_getLast? last)
    have behind : Terminated rest := by
      cases rest with
      | nil => exact .inl rfl
      | cons c rest => exact .inr (by simpa using last)
    obtain ⟨lines, parts, split, each⟩ := behind.exists_lines
    refine ⟨line :: lines, ?_, ?_, List.forall_mem_cons.mpr ⟨whole, each⟩⟩
    · rw [List.flatMap_cons, ← parts, List.append_assoc, List.singleton_append]
    · rw [List.splitOn_append_cons_self_of_not_mem whole, split, List.cons_append]
termination_by text.length
decreasing_by
  simp only [*, List.length_append, List.length_cons]
  omega

theorem join_fed (lines : List (List Char)) :
    String.join (lines.map fed) = String.ofList (lines.flatMap (· ++ ['\n'])) := by
  induction lines with
  | nil => rfl
  | cons line lines ih =>
    rw [List.map_cons, String.join_cons, ih, fed, List.flatMap_cons, ← String.ofList_append]

/-- Every line has a byte at least, so there are no more lines than bytes. -/
theorem length_le_encode_join (lines : List (List Char)) :
    lines.length ≤ (Text.encode (String.join (lines.map fed))).length := by
  induction lines with
  | nil => exact Nat.zero_le _
  | cons line lines ih =>
    rw [List.map_cons, String.join_cons, Text.encode_append, encode_fed]
    simp only [List.length_append, List.length_cons, List.length_nil]
    omega

/-! ### Programs on a stream -/

/-- A program on a stream: whole lines, none of which is the mark, and behind them a line with the mark,
with so many carriage returns before its line feed. -/
structure Frame where
  program : String
  returns : Nat
  terminated : Terminated program.toList
  ordinary : ∀ line ∈ program.toList.splitOn '\n', ¬IsMark line

namespace Frame

/-- The line behind the program, without its line feed. -/
def mark (frame : Frame) : List Char :=
  endOfCode.toList ++ List.replicate frame.returns '\r'

def bytes (frame : Frame) : List UInt8 :=
  Text.encode (frame.program ++ fed frame.mark)

theorem isMark_mark (frame : Frame) : IsMark frame.mark :=
  ⟨_, rfl, fun _ member => .inl (List.eq_of_mem_replicate member)⟩

theorem feed_not_mem_mark (frame : Frame) : '\n' ∉ frame.mark := by
  have name : '\n' ∉ endOfCode.toList := by decide
  simp [mark, name]

/-- Reading a program takes the program and the mark off the stream. -/
theorem readProgram_bytes (frame : Frame) (rest : List UInt8) :
    readProgram (frame.bytes ++ rest) = (.ok frame.program, rest) := by
  obtain ⟨lines, parts, split, whole⟩ := frame.terminated.exists_lines
  have ordinary : ∀ line ∈ lines, ¬IsMark line := by
    intro line member
    apply frame.ordinary
    rw [split]
    exact List.mem_append_left _ member
  have text : frame.program = String.join (lines.map fed) := by
    rw [join_fed, ← parts, String.ofList_toList]
  have stream : frame.bytes ++ rest = Text.encode (String.join (lines.map fed))
      ++ (Text.encode (fed frame.mark) ++ rest) := by
    rw [bytes, text, Text.encode_append, List.append_assoc]
  -- The budget is the number of bytes, and the mark has some too.
  have enough : lines.length < (frame.bytes ++ rest).length := by
    have count := length_le_encode_join lines
    rw [stream, encode_fed]
    simp only [List.length_append, List.length_singleton]
    omega
  rw [stream] at enough
  rw [readProgram, stream,
    readLines_lines whole ordinary frame.feed_not_mem_mark frame.isMark_mark enough,
    String.empty_append, text]

end Frame

/-- Reads so many programs off a stream, one behind the other. -/
def readPrograms : Nat → List UInt8 → List (Except FileFault String) × List UInt8
  | 0, bytes => ([], bytes)
  | count + 1, bytes =>
    let (program, rest) := readProgram bytes
    let (others, left) := readPrograms count rest
    (program :: others, left)

/-- Programs that stand one behind the other on a stream are read one after the other, and exactly what
stands behind them is left. -/
theorem readPrograms_frames (frames : List Frame) (rest : List UInt8) :
    readPrograms frames.length (frames.flatMap Frame.bytes ++ rest)
      = (frames.map fun frame => .ok frame.program, rest) := by
  induction frames with
  | nil => rfl
  | cons frame frames ih =>
    rw [List.flatMap_cons, List.append_assoc, List.length_cons, readPrograms,
      frame.readProgram_bytes]
    simp only [ih, List.map_cons]

/-- The mark inside a longer line, a program without lines, a mark with carriage returns, and bytes
behind it that are no text. -/
theorem readPrograms_frames_embedded :
    let program : String := "say(\"é\")\n\n__LAUREL_END_OF_CODE__ \n"
    let rest : List UInt8 := [0xFF, 10, 65]
    readPrograms 2 (Text.encode (program ++ fed endOfCode.toList)
        ++ Text.encode (fed (endOfCode.toList ++ ['\r', '\r'])) ++ rest)
      = ([.ok program, .ok ""], rest) := by
  intro program rest
  have read := readPrograms_frames
    [⟨program, 0, .inr (by decide), by decide⟩, ⟨"", 2, .inl rfl, by decide⟩] rest
  simpa [Frame.bytes, Frame.mark] using read

end Primer.Stream
