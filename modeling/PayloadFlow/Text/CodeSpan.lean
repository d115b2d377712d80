/-!
# Spans of code points

A set of characters given by a property is written as a list of spans: a first
and a last code point and the distance between members.
-/

namespace PayloadFlow
namespace Text

/-- The code points `first`, `first + step`, … up to `last`. -/
structure CodeSpan where
  first : Nat
  last : Nat
  step : Nat
  deriving DecidableEq, Repr

namespace CodeSpan

def contains (s : CodeSpan) (n : Nat) : Bool :=
  s.first ≤ n && n ≤ s.last && (n - s.first) % s.step == 0

end CodeSpan

def inSpans (spans : List CodeSpan) (c : Char) : Bool :=
  spans.any fun s => s.contains c.toNat

end Text
end PayloadFlow
