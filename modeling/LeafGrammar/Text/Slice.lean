/-!
# Cutting a text at an offset

Offsets count characters. A negative offset counts from the end: `-1` stands
before the last character. An offset outside the text is moved to its nearer
end, except where a single character is asked for.
-/

namespace LeafGrammar.Text

/-- The place in a text of `n` characters that offset `i` stands for. -/
def place (n : Nat) (i : Int) : Nat :=
  match i with
  | .ofNat k => min k n
  | .negSucc k => n - (k + 1)

/-- The text from offset `i` on. -/
def suffixFrom (s : List Char) (i : Int) : List Char :=
  match i with
  | .ofNat k => s.drop k
  | .negSucc k => s.drop (s.length - (k + 1))

/-- The text before offset `i`. -/
def before (s : List Char) (i : Int) : List Char := s.take (place s.length i)

/-- The character at offset `i`, if there is one. -/
def charAt? (s : List Char) (i : Int) : Option Char :=
  match i with
  | .ofNat k => s[k]?
  | .negSucc k => if k + 1 ≤ s.length then s[s.length - (k + 1)]? else none

/-- The text without its first and last character. -/
def inner (s : List Char) : List Char := (s.drop 1).dropLast

end LeafGrammar.Text
