import LeafGrammar.Text.Printable

/-!
# Quoted texts

A text is shown between quotes on one line. Single quotes are used, unless the
text holds a single quote and no double quote. A backslash, the quote in use and
every character that is not printable are written as an escape, so the shown
form never breaks a line and tells every text apart.
-/

namespace LeafGrammar.Text

/-- The quote that encloses `s`. -/
def quoteFor (s : List Char) : Char :=
  if s.contains '\'' && !s.contains '"' then '"' else '\''

/-- The lower-case hexadecimal digits of `n`, at least `width` of them. -/
def hexDigits (width n : Nat) : List Char :=
  let ds := Nat.toDigits 16 n
  List.replicate (width - ds.length) '0' ++ ds

/-- How one character is written inside the quotes `q`. -/
def escapeChar (q c : Char) : List Char :=
  if c = '\\' || c = q then ['\\', c]
  else if c = '\n' then ['\\', 'n']
  else if c = '\r' then ['\\', 'r']
  else if c = '\t' then ['\\', 't']
  else if isPrintable c then [c]
  else if c.toNat < 0x100 then '\\' :: 'x' :: hexDigits 2 c.toNat
  else if c.toNat < 0x10000 then '\\' :: 'u' :: hexDigits 4 c.toNat
  else '\\' :: 'U' :: hexDigits 8 c.toNat

/-- The shown form of a list of characters. -/
def quotedChars (s : List Char) : List Char :=
  let q := quoteFor s
  q :: s.flatMap (escapeChar q) ++ [q]

/-- The shown form of a text. -/
def quoted (s : String) : String := String.ofList (quotedChars s.toList)

end LeafGrammar.Text
