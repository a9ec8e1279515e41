/-!
# Ranges of code points

A character class of a standard is written as a list of inclusive ranges in
rising order. Look-up walks the list and stops at the first range that starts
above the code point, which is right because the ranges rise.
-/

namespace LeafGrammar.Text

/-- Inclusive ranges of code points, in rising order. -/
abbrev Ranges := List (Nat × Nat)

/-- Is `n` in one of the ranges? -/
def Ranges.contains : Ranges → Nat → Bool
  | [], _ => false
  | (lo, hi) :: rest, n =>
    if n < lo then false else if n ≤ hi then true else Ranges.contains rest n

end LeafGrammar.Text
