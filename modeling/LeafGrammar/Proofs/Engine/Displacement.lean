import LeafGrammar.Pattern.Matcher
import LeafGrammar.Proofs.Engine.Likeness
import LeafGrammar.Proofs.Engine.Tracing

/-!
# A rule does not look back

What stands before the offset that a rule starts from decides nothing (`evaluate_displaced`). If
something is put before a text and the start is moved on by its length, the two runs are alike: a
leaf sees the text from its offset on and nothing before it, tokens are told apart by how much of
the text is left behind them, and an offset is compared with another offset of the same run only.

Offsets are not negative here. A negative one counts from the end of the text.
-/

namespace LeafGrammar

theorem Integral.advance_advance_comm (i : Integral) (k n : Nat) :
    (i.advance k).advance n = (i.advance n).advance k := by
  simp only [advance, toInt_num, num.injEq]
  omega

/-- Behind a text that is put before it a text goes on as it did. -/
theorem Text.suffixFrom_append (front text : List Char) {i : Int} (hi : 0 ≤ i) :
    Text.suffixFrom (front ++ text) (i + front.length) = Text.suffixFrom text i := by
  obtain ⟨n, rfl⟩ := Int.eq_ofNat_of_zero_le hi
  show (front ++ text).drop (n + front.length) = text.drop n
  rw [Nat.add_comm, List.drop_append, List.drop_eq_nil_of_le (by omega), List.nil_append]
  congr 1
  omega

/-- A leaf sees nothing of what is put before the text. -/
theorem leafResult_advance (p : Pattern) (front text : List Char) {pos : Integral}
    (hpos : 0 ≤ pos.toInt) :
    leafResult p (front ++ text) (pos.advance front.length) =
      (leafResult p text pos).moved (·.advance front.length) := by
  have hahead : 0 ≤ pos.toInt + front.length := by omega
  simp only [leafResult, Integral.toInt_advance, Text.suffixFrom_append front text hpos, hpos,
    hahead, decide_true, Bool.and_true]
  split_ifs
  · rfl
  · cases p.matched? (Text.suffixFrom text pos.toInt) with
    | none => rfl
    | some found =>
      simp only [Result.moved]
      rw [Integral.advance_advance_comm]

/-- The text behind something that is put before it. -/
def Displacement.behind (front text : List Char) : Displacement (front ++ text) text where
  move pos := pos.advance front.length
  Covers pos := 0 ≤ pos.toInt
  toInt_move p q := by simp only [Integral.toInt_advance, Int.add_left_inj]
  leaf p _ hpos := leafResult_advance p front text hpos
  covers_leaf p pos hpos := Int.le_trans hpos (leafResult_isAhead p text pos).le

/-- Any node is like itself with the same slots. -/
theorem Slots.Alike.refl (slots : Slots) : slots.Alike Eq slots := by
  rintro slot _ rfl
  cases slots.target? slot with
  | none => exact .none
  | some n => exact .some (.of_points fun _ _ => rfl)

/-- **A rule does not look back.** Behind something that is put before it a text is read as it was,
with the same number of moves, and the offset of the result is moved on by the length of what is
put before. With a trace, in whatever journals, the two runs agree likewise unless one of them comes
to an integer with too many digits to be written. -/
theorem evaluate_displaced (slots : Slots) (front text : List Char) (root : Node) (pos : Integral)
    (hpos : 0 ≤ pos.toInt) :
    (∀ fuel, evaluate fuel slots (front ++ text) root (pos.advance front.length) =
      (evaluate fuel slots text root pos).moved (·.advance front.length)) ∧
    ∀ fuel j j',
      let moved := (evaluateIn fuel slots (front ++ text) root (pos.advance front.length) j').1
      let plain := (evaluateIn fuel slots text root pos j).1
      moved = plain.moved (·.advance front.length) ∨
        moved = .raised (.value .tooManyDigitsToShow) ∨
        plain = .raised (.value .tooManyDigitsToShow) := by
  have hsame (fuel : Nat) : evaluate fuel slots (front ++ text) root (pos.advance front.length) =
      (evaluate fuel slots text root pos).moved (·.advance front.length) :=
    evaluate_alike (.behind front text) (.refl slots) (.of_points fun _ _ => rfl) hpos fuel
  refine ⟨hsame, fun fuel j j' => ?_⟩
  rcases evaluateIn_cases fuel slots text root pos j with hplain | ⟨hplain, -⟩
  · rcases evaluateIn_cases fuel slots (front ++ text) root (pos.advance front.length) j' with
      hmoved | ⟨hmoved, -⟩
    · left
      rw [hmoved, hplain, hsame fuel]
    · exact .inr (.inl hmoved)
  · exact .inr (.inr hplain)

/-- Letters `a` at the start of what is left of the text, again and again, and a `b` behind an `a`
that has been read, if it could be seen. -/
def lookingBack : Node :=
  .choice 5
    (.splice 1 (.leaf 0 (.ofRegex "^a" (.seq (.anchor .textStart) (.one (.ofChar 'a') .exact)))) 0)
    (.choice 4 (.leaf 2 (.ofRegex "(?<=a)b"
        (.seq (.look true false (.one (.ofChar 'a') .exact)) (.one (.ofChar 'b') .exact))))
      (.empty 3))

/-- In the text `aab` and behind `ba` one letter is read from the second one on, and the `b` is
not. -/
theorem evaluate_displaced_lookingBack :
    0 ≤ (Integral.num 1).toInt ∧
      evaluate 40 #[some lookingBack] ['a', 'a', 'b'] lookingBack (.num 1) =
        .value (.success [.text "a"] (.num 2)) ∧
      evaluate 40 #[some lookingBack] ['b', 'a', 'a', 'a', 'b'] lookingBack (.num 3) =
        .value (.success [.text "a"] (.num 4)) := by
  have hstart : 0 ≤ (Integral.num 1).toInt := by decide
  have hrun : evaluate 40 #[some lookingBack] ['a', 'a', 'b'] lookingBack (.num 1) =
      .value (.success [.text "a"] (.num 2)) := rfl
  have hmoved := (evaluate_displaced #[some lookingBack] ['b', 'a'] ['a', 'a', 'b'] lookingBack
    (.num 1) hstart).1 40
  rw [hrun] at hmoved
  exact ⟨hstart, hrun, hmoved⟩

end LeafGrammar
