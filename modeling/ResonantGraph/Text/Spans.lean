/-!
# Sets of characters by code point

A property of characters is given as an array of spans, closed intervals of code points.
-/

namespace ResonantGraph.Text

/-- Closed intervals of code points. -/
abbrev Spans := Array (Nat × Nat)

/-- Whether a character lies in one of the spans. -/
def Spans.holds (spans : Spans) (c : Char) : Bool :=
  spans.any fun (first, last) => first ≤ c.toNat && c.toNat ≤ last

end ResonantGraph.Text
