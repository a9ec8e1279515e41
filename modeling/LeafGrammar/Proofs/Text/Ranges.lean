import LeafGrammar.Pattern.CharSet

/-!
# Character classes that are apart

Two classes have no character in common if none of the ranges of the one meets a range of
the other. White space is apart from the digits and from the characters of words, also as patterns
know them.
-/

namespace LeafGrammar.Text

theorem Ranges.exists_of_contains {rs : Ranges} {n : Nat} (h : rs.contains n = true) :
    ∃ r ∈ rs, r.1 ≤ n ∧ n ≤ r.2 := by
  induction rs with
  | nil => cases h
  | cons r rs ih =>
    unfold Ranges.contains at h
    split at h
    · cases h
    · rename_i hlo
      split at h
      · rename_i hhi
        exact ⟨r, List.mem_cons_self, Nat.le_of_not_lt hlo, hhi⟩
      · obtain ⟨r', hr', hn⟩ := ih h
        exact ⟨r', List.mem_cons_of_mem r hr', hn⟩

/-- No range of the one meets a range of the other. -/
def Ranges.areApart (rs rs' : Ranges) : Bool :=
  rs.all fun r => rs'.all fun r' => r.2 < r'.1 || r'.2 < r.1

theorem Ranges.not_contains_of_areApart {rs rs' : Ranges} {n : Nat} (h : rs.areApart rs' = true)
    (hn : rs.contains n = true) : rs'.contains n = false := by
  cases hn' : rs'.contains n with
  | false => rfl
  | true =>
    obtain ⟨r, hr, hlo, hhi⟩ := Ranges.exists_of_contains hn
    obtain ⟨r', hr', hlo', hhi'⟩ := Ranges.exists_of_contains hn'
    have hpair := List.all_eq_true.mp (List.all_eq_true.mp h r hr) r' hr'
    simp only [Bool.or_eq_true, decide_eq_true_eq] at hpair
    omega

theorem isDecimalDigit_of_isBlank {c : Char} (h : isBlank c = true) : isDecimalDigit c = false :=
  Ranges.not_contains_of_areApart (by decide +kernel) h

theorem isLaterDigit_of_isBlank {c : Char} (h : isBlank c = true) : isLaterDigit c = false :=
  Ranges.not_contains_of_areApart (by decide +kernel) h

theorem isWord_of_isBlank {c : Char} (h : isBlank c = true) : isWord c = false :=
  Ranges.not_contains_of_areApart (by decide +kernel) h

end LeafGrammar.Text

namespace LeafGrammar.Pattern

theorem isDigit_of_isBlank {c : Char} (h : Text.isBlank c = true) : isDigit c = false := by
  rw [isDigit, Text.isDecimalDigit_of_isBlank h, Text.isLaterDigit_of_isBlank h]
  rfl

theorem isWord_of_isBlank {c : Char} (h : Text.isBlank c = true) : isWord c = false := by
  rw [isWord, Text.isWord_of_isBlank h, Text.isLaterDigit_of_isBlank h]
  rfl

end LeafGrammar.Pattern
