import LeafGrammar.Number.Literal
import LeafGrammar.Proofs.Text.Ranges
import Mathlib.Algebra.Group.Nat.Defs

/-!
# Digits that are read and written

An integer can be written exactly if it is below ten to the power of the digit limit
(`isWritable_iff`). Decimal digits are read as an integer unless there are too many of them
(`readInt_digits`), and as a double if a point stands between them (`readFloat_fraction`): what
makes a text no number is a sign, an underscore or a letter, and none of these is a digit. But a
text with a digit of a later script among the others is refused (`readInt_unknown`).
-/

namespace LeafGrammar

/-! ### Writing -/

namespace Number

theorem isWritable_iff {n : Int} : isWritable n = true ↔ n.natAbs < 10 ^ digitLimit := by
  unfold isWritable digitCount
  rw [decide_eq_true_eq]
  exact Nat.length_toDigits_le_iff (by decide) (by decide)

theorem showInt_natCast {n : Nat} (hn : n < 10 ^ digitLimit) :
    showInt n = .ok (toString (n : Int)) := by
  have hwritable : isWritable n = true := isWritable_iff.mpr (by rwa [Int.natAbs_natCast])
  exact if_pos hwritable

theorem showInt_of_not_isWritable {n : Int} (hn : isWritable n = false) :
    showInt n = .error (.value .tooManyDigitsToShow) := by
  unfold showInt
  rw [hn]
  rfl

end Number

/-! ### Characters of numbers -/

namespace Text

theorem Ranges.isSome_start? (rs : Ranges) (n : Nat) : (rs.start? n).isSome = rs.contains n := by
  induction rs with
  | nil => rfl
  | cons r rs ih =>
    unfold Ranges.contains Ranges.start?
    split
    · rfl
    · split
      · rfl
      · exact ih

/-- The digits are the characters that have a value. -/
theorem isSome_digitValue? (c : Char) : (digitValue? c).isSome = isDecimalDigit c := by
  rw [digitValue?, Option.isSome_map, Ranges.isSome_start?, isDecimalDigit]

/-- A character that is no digit is none of them. -/
theorem ne_of_isDecimalDigit {c d : Char} (hc : isDecimalDigit c = true)
    (hd : isDecimalDigit d = false) : c ≠ d := by
  rintro rfl
  rw [hd] at hc
  cases hc

/-- No digit is a letter. -/
theorem asciiLowerOf_digit {c : Char} (hc : isDecimalDigit c = true) : asciiLowerOf c = c := by
  refine if_neg fun hletter => ?_
  have hupper : Ranges.contains [('A'.toNat, 'Z'.toNat)] c.toNat = true := by
    simp only [Bool.and_eq_true, decide_eq_true_eq, Char.le_def, UInt32.le_iff_toNat_le] at hletter
    obtain ⟨hlo, hhi⟩ : 'A'.toNat ≤ c.toNat ∧ c.toNat ≤ 'Z'.toNat := hletter
    unfold Ranges.contains
    rw [if_neg (Nat.not_lt.mpr hlo), if_pos hhi]
  have happart : decimalDigitRanges.contains c.toNat = false :=
    Ranges.not_contains_of_areApart (by decide +kernel) hupper
  rw [isDecimalDigit, happart] at hc
  cases hc

theorem trimBlanks_eq_self {s : List Char} (hs : ∀ c ∈ s, isBlank c = false) :
    trimBlanks s = s := by
  have hstay {l : List Char} (hl : ∀ c ∈ l, isBlank c = false) : l.dropWhile isBlank = l := by
    cases l with
    | nil => rfl
    | cons c l =>
      rw [List.dropWhile_cons_of_neg]
      simp [hl c List.mem_cons_self]
  unfold trimBlanks trimBy
  rw [hstay hs, hstay fun c hc => hs c (List.mem_reverse.mp hc), List.reverse_reverse]

end Text

namespace Pattern

theorem isDigit_of_isDecimalDigit {c : Char} (hc : Text.isDecimalDigit c = true) :
    isDigit c = true := by
  rw [isDigit, hc]
  rfl

theorem ne_of_isDigit {c d : Char} (hc : isDigit c = true) (hd : isDigit d = false) : c ≠ d := by
  rintro rfl
  rw [hd] at hc
  cases hc

theorem isBlank_digit {c : Char} (hc : isDigit c = true) : Text.isBlank c = false := by
  cases hb : Text.isBlank c with
  | false => rfl
  | true => rw [← hc, isDigit_of_isBlank hb]

end Pattern

/-! ### Reading -/

namespace Number

variable {w a b rest : List Char}

/-- The values of digits. -/
def digitValues (w : List Char) : List Nat := w.filterMap Text.digitValue?

theorem exists_digitValue?_eq {c : Char} (hc : Text.isDecimalDigit c = true) :
    ∃ d, Text.digitValue? c = some d :=
  Option.isSome_iff_exists.mp ((Text.isSome_digitValue? c).trans hc)

theorem length_digitValues (hw : ∀ c ∈ w, Text.isDecimalDigit c = true) :
    (digitValues w).length = w.length := by
  induction w with
  | nil => rfl
  | cons c w ih =>
    obtain ⟨d, hd⟩ := exists_digitValue?_eq (hw c List.mem_cons_self)
    unfold digitValues
    rw [List.filterMap_cons_some hd, List.length_cons, List.length_cons]
    exact congrArg (· + 1) (ih fun x hx => hw x (List.mem_cons_of_mem c hx))

theorem isEmpty_digitValues (hw : ∀ c ∈ w, Text.isDecimalDigit c = true) :
    (digitValues w).reverse.isEmpty = w.isEmpty := by
  rw [Bool.eq_iff_iff, List.isEmpty_iff_length_eq_zero, List.isEmpty_iff_length_eq_zero,
    List.length_reverse, length_digitValues hw]

/-- Digits are read up to what comes after them. -/
theorem readDigits_append (hw : ∀ c ∈ w, Text.isDecimalDigit c = true) (ready : Bool)
    (acc : List Nat) :
    readDigits (w ++ rest) ready acc =
      readDigits rest (ready || !w.isEmpty) ((digitValues w).reverse ++ acc) := by
  induction w generalizing ready acc with
  | nil => simp [digitValues]
  | cons c w ih =>
    have hc := hw c List.mem_cons_self
    obtain ⟨d, hd⟩ := exists_digitValue?_eq hc
    have hne : c ≠ '_' := Text.ne_of_isDecimalDigit hc (by decide)
    have hstep : readDigits (c :: (w ++ rest)) ready acc = readDigits (w ++ rest) true (d :: acc) := by
      rw [readDigits]
      · simp only [hd]
      · simpa using hne
    rw [List.cons_append, hstep, ih fun x hx => hw x (List.mem_cons_of_mem c hx)]
    simp [digitValues, List.filterMap_cons_some hd]

/-- So they are read to the end. -/
theorem readDigits_digits (hne : w ≠ []) (hw : ∀ c ∈ w, Text.isDecimalDigit c = true) :
    readDigits w false [] = ⟨(digitValues w).reverse, [], true⟩ := by
  have hread : readDigits (w ++ []) false [] = _ := readDigits_append hw false []
  rw [List.append_nil, List.append_nil] at hread
  rw [hread, readDigits, List.isEmpty_eq_false_iff.mpr hne]
  rfl

/-- Nothing is read of what has no value. -/
theorem readDigits_unknown {c : Char} (hc : Text.isDecimalDigit c = false) (hne : c ≠ '_')
    (ready : Bool) (acc : List Nat) :
    readDigits (c :: rest) ready acc = ⟨acc, c :: rest, ready || acc.isEmpty⟩ := by
  have hvalue : Text.digitValue? c = none := by
    rw [← Option.not_isSome_iff_eq_none, Text.isSome_digitValue?, hc]
    exact Bool.false_ne_true
  rw [readDigits]
  · simp only [hvalue]
  · simpa using hne

/-- A number that starts with a digit has no sign. -/
theorem splitSign_digit {c : Char} (hc : Pattern.isDigit c = true) (rest : List Char) :
    splitSign (c :: rest) = (false, c :: rest) := by
  rw [splitSign]
  · simpa using Pattern.ne_of_isDigit hc (by decide)
  · simpa using Pattern.ne_of_isDigit hc (by decide)

/-- **Digits are read as an integer**, unless there are too many of them. -/
theorem readInt_digits (hne : w ≠ []) (hw : ∀ c ∈ w, Text.isDecimalDigit c = true) :
    readInt (String.ofList w) =
      if digitLimit < w.length then .error (.value (.tooManyDigitsToRead w.length))
      else .ok (ofDigits (digitValues w).reverse : Nat) := by
  have hdigits : ∀ c ∈ w, Pattern.isDigit c = true := fun c hc =>
    Pattern.isDigit_of_isDecimalDigit (hw c hc)
  have hblank : ∀ c ∈ w, Text.isBlank c = false := fun c hc => Pattern.isBlank_digit (hdigits c hc)
  have hsign : splitSign w = (false, w) := by
    obtain ⟨c, v, rfl⟩ := List.exists_cons_of_ne_nil hne
    exact splitSign_digit (hdigits c List.mem_cons_self) v
  have hsome : (digitValues w).reverse.isEmpty = false := by
    rw [isEmpty_digitValues hw, List.isEmpty_eq_false_iff.mpr hne]
  unfold readInt
  simp only [String.toList_ofList, Text.trimBlanks_eq_self hblank, hsign,
    readDigits_digits hne hw, hsome, List.length_reverse, length_digitValues hw]
  simp

/-- The first digit that has no value, and those in front of it. -/
theorem exists_first_unknown (h : ∃ c ∈ w, Text.isDecimalDigit c = false) :
    ∃ known c rest, w = known ++ c :: rest ∧ (∀ x ∈ known, Text.isDecimalDigit x = true) ∧
      Text.isDecimalDigit c = false := by
  have hfound : (w.find? (!Text.isDecimalDigit ·)).isSome := by simpa [List.find?_isSome] using h
  obtain ⟨c, hfirst⟩ := Option.isSome_iff_exists.mp hfound
  obtain ⟨hc, known, rest, rfl, hknown⟩ := List.find?_eq_some_iff_append.mp hfirst
  exact ⟨known, c, rest, rfl, by simpa using hknown, by simpa using hc⟩

/-- **Digits with one of a later script among them are refused**, for their number if there are too
many in front of it. -/
theorem readInt_unknown {known : List Char} {c : Char}
    (hw : ∀ x ∈ known ++ c :: rest, Pattern.isDigit x = true)
    (hknown : ∀ x ∈ known, Text.isDecimalDigit x = true) (hc : Text.isDecimalDigit c = false) :
    readInt (String.ofList (known ++ c :: rest)) =
      if digitLimit < known.length then .error (.value (.tooManyDigitsToRead known.length))
      else .error (.value (.intLiteral (Text.quoted (String.ofList (known ++ c :: rest))))) := by
  have hne : c ≠ '_' := Pattern.ne_of_isDigit (hw c (by simp)) (by decide)
  have hblank : ∀ x ∈ known ++ c :: rest, Text.isBlank x = false := fun x hx =>
    Pattern.isBlank_digit (hw x hx)
  have hsign : splitSign (known ++ c :: rest) = (false, known ++ c :: rest) := by
    obtain ⟨x, v, heq⟩ := List.exists_cons_of_ne_nil (l := known ++ c :: rest) (by simp)
    rw [heq] at hw ⊢
    exact splitSign_digit (hw x List.mem_cons_self) v
  have hread : readDigits (known ++ c :: rest) false [] =
      ⟨(digitValues known).reverse, c :: rest, true⟩ := by
    rw [readDigits_append hknown, readDigits_unknown hc hne, List.append_nil]
    cases known <;> simp [digitValues]
  unfold readInt
  simp only [String.toList_ofList, Text.trimBlanks_eq_self hblank, hsign, hread,
    List.length_reverse, length_digitValues hknown, isEmpty_digitValues hknown]
  cases known <;> simp

/-- A text that starts with a digit is none of the words that are doubles. -/
theorem lowered_ne {c i : Char} (hc : Text.isDecimalDigit c = true)
    (hi : Text.isDecimalDigit i = false) (rest word : List Char) :
    String.ofList ((c :: rest).map Text.asciiLowerOf) ≠ String.ofList (i :: word) := by
  rw [List.map_cons, Text.asciiLowerOf_digit hc]
  intro h
  exact Text.ne_of_isDecimalDigit hc hi (List.cons.inj (String.ofList_injective h)).1

theorem readDecimal?_fraction (negative : Bool) (ha : a ≠ []) (hb : b ≠ [])
    (hda : ∀ c ∈ a, Text.isDecimalDigit c = true) (hdb : ∀ c ∈ b, Text.isDecimalDigit c = true) :
    ∃ x, readDecimal? negative (a ++ '.' :: b) = some x := by
  have hwhole : readDigits (a ++ '.' :: b) false [] = ⟨(digitValues a).reverse, '.' :: b, true⟩ := by
    rw [readDigits_append hda, List.append_nil, List.isEmpty_eq_false_iff.mpr ha]
    rfl
  have hsome : (digitValues a).reverse.isEmpty = false := by
    rw [isEmpty_digitValues hda, List.isEmpty_eq_false_iff.mpr ha]
  unfold readDecimal?
  simp only [hwhole, readDigits_digits hb hdb, hsome]
  exact ⟨_, rfl⟩

/-- **Digits with a point between them are read as a double.** -/
theorem readFloat_fraction (ha : a ≠ []) (hb : b ≠ [])
    (hda : ∀ c ∈ a, Text.isDecimalDigit c = true) (hdb : ∀ c ∈ b, Text.isDecimalDigit c = true) :
    ∃ x, readFloat (String.ofList (a ++ '.' :: b)) = .ok x := by
  have hblank : ∀ c ∈ a ++ '.' :: b, Text.isBlank c = false := by
    intro c hc
    rcases List.mem_append.mp hc with hc | hc
    · exact Pattern.isBlank_digit (Pattern.isDigit_of_isDecimalDigit (hda c hc))
    · rcases List.mem_cons.mp hc with rfl | hc
      · decide
      · exact Pattern.isBlank_digit (Pattern.isDigit_of_isDecimalDigit (hdb c hc))
  obtain ⟨x, hx⟩ := readDecimal?_fraction false ha hb hda hdb
  obtain ⟨c, v, rfl⟩ := List.exists_cons_of_ne_nil ha
  have hc := hda c List.mem_cons_self
  have hword (i : Char) (hi : Text.isDecimalDigit i = false) (word : List Char) :=
    lowered_ne hc hi (v ++ '.' :: b) word
  rw [List.cons_append] at hblank hx ⊢
  refine ⟨x, ?_⟩
  unfold readFloat
  simp only [String.toList_ofList, Text.trimBlanks_eq_self hblank,
    splitSign_digit (Pattern.isDigit_of_isDecimalDigit hc)]
  rw [if_neg, if_neg]
  · rw [hx]
  · exact hword 'n' (by decide) ['a', 'n']
  · rw [Bool.or_eq_true, decide_eq_true_eq, decide_eq_true_eq]
    rintro (h | h)
    · exact hword 'i' (by decide) ['n', 'f'] h
    · exact hword 'i' (by decide) ['n', 'f', 'i', 'n', 'i', 't', 'y'] h

/-- A text that is read as no double is refused as it stands. -/
theorem readFloat_error {s : String} {f : Fault} (h : readFloat s = .error f) :
    f = .value (.floatLiteral (Text.quoted s)) := by
  unfold readFloat at h
  rcases splitSign (Text.trimBlanks s.toList) with ⟨negative, body⟩
  simp only at h
  split at h
  · cases h
  · split at h
    · cases h
    · split at h
      · cases h
      · cases h
        rfl

end Number

end LeafGrammar
