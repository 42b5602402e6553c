/-!
# Sets of code points

A property of characters is kept as the list of its maximal runs of code points, in ascending order,
so that a search may stop at the first run that starts beyond the code point it looks for.
-/

namespace Primer.Text

/-- Closed runs of code points, disjoint and ascending. -/
abbrev Ranges := List (Nat × Nat)

/-- Whether a run contains `code`. The search stops at the first run above it. -/
def Ranges.holds : Ranges → Nat → Bool
  | [], _ => false
  | (first, last) :: later, code =>
    if code < first then false
    else code ≤ last || Ranges.holds later code

end Primer.Text
