/-!
# Spans of source text

A span is a pair of byte offsets into the UTF-8 form of a source. Nothing is required of the two ends:
the modules that show a span to a reader bring it inside the source first.
-/

namespace Primer

/-- The bytes from `start` up to but not including `stop`. -/
structure Span where
  start : Nat
  stop : Nat
  deriving DecidableEq, Repr, Inhabited

namespace Span

/-- The empty span at an offset. -/
def emptyAt (offset : Nat) : Span :=
  ⟨offset, offset⟩

/-- From the start of one span to the end of another. -/
def through (first last : Span) : Span :=
  ⟨first.start, last.stop⟩

def text (span : Span) : String :=
  s!"{span.start}..{span.stop}"

end Span

end Primer
