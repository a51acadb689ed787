/-!
# CharSet — sets of characters as runs of code points

A property of characters is a short list of runs.  A run takes every code point from its first to its last, or every
second one: alphabets that write a capital before each small letter have the property on every other code point.
-/
namespace FieldRules
namespace Text

/-- The code points `first`, `first + step`, … up to `last`. -/
structure Run where
  first : Nat
  last : Nat
  step : Nat

abbrev CharSet := List Run

def Run.contains (r : Run) (c : Char) : Bool :=
  r.first ≤ c.toNat && c.toNat ≤ r.last && (c.toNat - r.first) % r.step == 0

def CharSet.contains (s : CharSet) (c : Char) : Bool :=
  s.any (·.contains c)

end Text
end FieldRules
