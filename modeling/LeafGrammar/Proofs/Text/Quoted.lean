import LeafGrammar.Pattern.Reader
import LeafGrammar.Text.Quoted
import Mathlib.Algebra.Group.Nat.Defs

/-!
# Quoted texts can be read back

The shown form of a text stays on one line (`newline_not_mem_quotedChars`), and it tells which text
it is: `unquoted` reads the text back from it (`unquoted_quotedChars`). The reader goes through the
form from left to right and never has to look ahead. It finds the quote in use in front, and behind
a backslash the next character says how many hexadecimal digits follow.
-/

namespace LeafGrammar.Text

open Pattern (hexValue?)

/-! ### The reader -/

/-- What the reader of a quoted text comes to next. -/
inductive Reading where
  /-- A character that stands for itself, an escape, or the closing quote. -/
  | plain
  /-- The character after a backslash. -/
  | escape
  /-- A hexadecimal digit, with `left` more after it; those before it have this value. -/
  | digits (left value : Nat)

/-- How many hexadecimal digits there are after the first one of an escape with this letter. -/
def digitsAfterFirst : Char → Option Nat
  | 'x' => some 1
  | 'u' => some 3
  | 'U' => some 7
  | _ => none

/-- The character that a letter after a backslash stands for. -/
def meant : Char → Char
  | 'n' => '\n'
  | 'r' => '\r'
  | 't' => '\t'
  | c => c

/-- The value of some digits with one more behind them. -/
def withDigit (value : Nat) (d : Char) : Nat := value * 16 + (hexValue? d).getD 0

/-- The characters up to the closing quote `q`, which must end the form. -/
def unquotedFrom (q : Char) : Reading → List Char → Option (List Char)
  | _, [] => none
  | .plain, c :: rest =>
    if c = '\\' then unquotedFrom q .escape rest
    else if c = q then if rest.isEmpty then some [] else none
    else (unquotedFrom q .plain rest).map (c :: ·)
  | .escape, c :: rest =>
    match digitsAfterFirst c with
    | some left => unquotedFrom q (.digits left 0) rest
    | none => (unquotedFrom q .plain rest).map (meant c :: ·)
  | .digits 0 value, d :: rest =>
    (unquotedFrom q .plain rest).map (Char.ofNat (withDigit value d) :: ·)
  | .digits (left + 1) value, d :: rest => unquotedFrom q (.digits left (withDigit value d)) rest

/-- The text with this shown form. -/
def unquoted : List Char → Option (List Char)
  | [] => none
  | q :: rest => unquotedFrom q .plain rest

/-! ### Hexadecimal digits -/

theorem hexValue?_digitChar : ∀ k < 16, hexValue? (Nat.digitChar k) = some k := by decide

theorem digitChar_ne_newline : ∀ k < 16, Nat.digitChar k ≠ '\n' := by decide

/-- The digits of a number have its value. -/
theorem foldl_toDigits (n : Nat) : (Nat.toDigits 16 n).foldl withDigit 0 = n := by
  induction n using Nat.strongRecOn with
  | ind n ih =>
    rcases Nat.lt_or_ge n 16 with hlt | hge
    · rw [Nat.toDigits_of_lt_base hlt]
      simp [withDigit, hexValue?_digitChar n hlt]
    · rw [Nat.toDigits_of_base_le (by decide) hge, List.foldl_append, ih (n / 16) (by omega)]
      simp only [List.foldl_cons, List.foldl_nil, withDigit,
        hexValue?_digitChar (n % 16) (by omega), Option.getD_some]
      omega

theorem newline_not_mem_toDigits (n : Nat) : '\n' ∉ Nat.toDigits 16 n := by
  induction n using Nat.strongRecOn with
  | ind n ih =>
    rcases Nat.lt_or_ge n 16 with hlt | hge
    · rw [Nat.toDigits_of_lt_base hlt, List.mem_singleton]
      exact (digitChar_ne_newline n hlt).symm
    · rw [Nat.toDigits_of_base_le (by decide) hge, List.mem_append, List.mem_singleton]
      rintro (h | h)
      · exact ih (n / 16) (by omega) h
      · exact digitChar_ne_newline (n % 16) (by omega) h.symm

theorem foldl_replicate_zero (k : Nat) : (List.replicate k '0').foldl withDigit 0 = 0 := by
  induction k with
  | zero => rfl
  | succ k ih => exact ih

/-- Zeros in front do not change the value. -/
theorem foldl_hexDigits (width n : Nat) : (hexDigits width n).foldl withDigit 0 = n := by
  rw [hexDigits, List.foldl_append, foldl_replicate_zero, foldl_toDigits]

theorem length_hexDigits {width n : Nat} (hw : 0 < width) (hn : n < 16 ^ width) :
    (hexDigits width n).length = width := by
  have hle : (Nat.toDigits 16 n).length ≤ width :=
    (Nat.length_toDigits_le_iff (by decide) hw).mpr hn
  simp only [hexDigits, List.length_append, List.length_replicate]
  omega

/-! ### Reading what has been written -/

variable {q : Char}

/-- Digits up to the last one give the character with their value. -/
theorem unquotedFrom_digits {left : Nat} (value : Nat) {ds : List Char} (rest : List Char)
    (h : ds.length = left + 1) :
    unquotedFrom q (.digits left value) (ds ++ rest) =
      (unquotedFrom q .plain rest).map (Char.ofNat (ds.foldl withDigit value) :: ·) := by
  induction left generalizing value ds with
  | zero =>
    obtain ⟨d, rfl⟩ := List.length_eq_one_iff.mp h
    rfl
  | succ left ih =>
    match ds, h with
    | d :: ds, h => exact ih (withDigit value d) (by simpa using h)

/-- So does an escape with so many digits. -/
theorem unquotedFrom_hex {letter : Char} {left width : Nat} {c : Char} (rest : List Char)
    (hletter : digitsAfterFirst letter = some left) (hwidth : width = left + 1)
    (hc : c.toNat < 16 ^ width) :
    unquotedFrom q .plain ('\\' :: letter :: hexDigits width c.toNat ++ rest) =
      (unquotedFrom q .plain rest).map (c :: ·) := by
  have hlength : (hexDigits width c.toNat).length = left + 1 := by
    rw [length_hexDigits (by omega) hc, hwidth]
  have hdigits := unquotedFrom_digits (q := q) 0 rest hlength
  rw [foldl_hexDigits, Char.ofNat_toNat] at hdigits
  simpa [unquotedFrom, hletter] using hdigits

/-- The quotes that are used. -/
def IsQuote (q : Char) : Prop := q = '\'' ∨ q = '"'

theorem isQuote_quoteFor (s : List Char) : IsQuote (quoteFor s) := by
  unfold quoteFor
  split
  · exact .inr rfl
  · exact .inl rfl

/-- **One character is read back**, whatever follows it. -/
theorem unquotedFrom_escapeChar (hq : IsQuote q) (c : Char) (rest : List Char) :
    unquotedFrom q .plain (escapeChar q c ++ rest) =
      (unquotedFrom q .plain rest).map (c :: ·) := by
  unfold escapeChar
  split
  · rename_i hc
    rw [Bool.or_eq_true, decide_eq_true_eq, decide_eq_true_eq] at hc
    rcases hc with rfl | rfl
    · simp [unquotedFrom, digitsAfterFirst, meant]
    · rcases hq with rfl | rfl <;> simp [unquotedFrom, digitsAfterFirst, meant]
  rename_i hself
  split
  · subst c
    simp [unquotedFrom, digitsAfterFirst, meant]
  split
  · subst c
    simp [unquotedFrom, digitsAfterFirst, meant]
  split
  · subst c
    simp [unquotedFrom, digitsAfterFirst, meant]
  split
  · simp only [Bool.or_eq_true, decide_eq_true_eq, not_or] at hself
    simp [unquotedFrom, hself]
  split
  · exact unquotedFrom_hex rest rfl rfl (by omega)
  split
  · exact unquotedFrom_hex rest rfl rfl (by omega)
  · have hvalid : c.toNat < 0x110000 := by
      have := c.valid
      simp only [UInt32.isValidChar, Nat.isValidChar] at this
      show c.val.toNat < 0x110000
      omega
    exact unquotedFrom_hex rest rfl rfl (by omega)

theorem unquotedFrom_flatMap (hq : IsQuote q) (s : List Char) :
    unquotedFrom q .plain (s.flatMap (escapeChar q) ++ [q]) = some s := by
  induction s with
  | nil => rcases hq with rfl | rfl <;> simp [unquotedFrom]
  | cons c s ih =>
    rw [List.flatMap_cons, List.append_assoc, unquotedFrom_escapeChar hq, ih]
    rfl

/-- **A text is read back from its shown form.** -/
theorem unquoted_quotedChars (s : List Char) : unquoted (quotedChars s) = some s :=
  unquotedFrom_flatMap (isQuote_quoteFor s) s

/-- Both quotes, a backslash that looks like an escape, and characters of every width. -/
example : unquoted (quotedChars ['\'', '"', '\\', 'x', '\n', '\x7f', '\u2028', '⟨', '\u0301']) =
    some ['\'', '"', '\\', 'x', '\n', '\x7f', '\u2028', '⟨', '\u0301'] := by decide +kernel

/-! ### On one line -/

theorem newline_not_mem_hexDigits (width n : Nat) : '\n' ∉ hexDigits width n := by
  rw [hexDigits, List.mem_append]
  rintro (h | h)
  · cases (List.mem_replicate.mp h).2
  · exact newline_not_mem_toDigits n h

theorem newline_not_mem_hex {letter : Char} (hletter : '\n' ≠ letter) (width n : Nat) :
    '\n' ∉ '\\' :: letter :: hexDigits width n := by
  rw [List.mem_cons, List.mem_cons]
  rintro (h | h | h)
  · cases h
  · exact hletter h
  · exact newline_not_mem_hexDigits width n h

theorem newline_not_mem_escapeChar (hq : IsQuote q) (c : Char) : '\n' ∉ escapeChar q c := by
  have hquote : '\n' ≠ q := by rcases hq with rfl | rfl <;> decide
  unfold escapeChar
  split
  · rename_i hc
    rw [Bool.or_eq_true, decide_eq_true_eq, decide_eq_true_eq] at hc
    rcases hc with rfl | rfl
    · decide
    · simpa using hquote
  split
  · decide
  split
  · decide
  split
  · decide
  split
  · rename_i hprintable
    rw [List.mem_singleton]
    rintro rfl
    exact absurd hprintable (by decide)
  split
  · exact newline_not_mem_hex (by decide) _ _
  split
  · exact newline_not_mem_hex (by decide) _ _
  · exact newline_not_mem_hex (by decide) _ _

/-- **The shown form of a text has no line break.** -/
theorem newline_not_mem_quotedChars (s : List Char) : '\n' ∉ quotedChars s := by
  have hq := isQuote_quoteFor s
  have hquote : '\n' ≠ quoteFor s := by
    rcases hq with h | h <;> rw [h] <;> decide
  rw [quotedChars, List.mem_append, List.mem_cons, List.mem_singleton, List.mem_flatMap]
  rintro ((h | ⟨c, -, hc⟩) | h)
  · exact hquote h
  · exact newline_not_mem_escapeChar hq c hc
  · exact hquote h

end LeafGrammar.Text
