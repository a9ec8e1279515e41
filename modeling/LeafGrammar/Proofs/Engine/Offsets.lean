import LeafGrammar.Proofs.Engine.Derivation

/-!
# Where a rule can end

No rule goes back, and none leaves the text: an ending at a result has its offset between
the offset that the task started from and the end of the text (`Derives.isAhead`). A task
that starts behind the end of the text stays where it is. Nothing is assumed of patterns
but that what they find is a part of the text.
-/

namespace LeafGrammar

/-- The offset of a result: where it stopped or where it failed. -/
def Result.offset : Result → Integral
  | .success _ pos | .failure pos _ => pos

/-- The offset that a task starts from. -/
def Task.offset : Task → Integral
  | .node _ pos => pos
  | .rounds _ _ _ _ cur _ => cur

/-- The offset `q` is reached from `pos` by going ahead in the text. -/
structure IsAhead (text : List Char) (pos q : Integral) : Prop where
  le : pos.toInt ≤ q.toInt
  le_end : q.toInt ≤ max pos.toInt text.length

namespace IsAhead

variable {text : List Char} {pos q q' : Integral}

theorem refl (text : List Char) (pos : Integral) : IsAhead text pos pos :=
  ⟨Int.le_refl _, Int.le_max_left _ _⟩

theorem trans (h : IsAhead text pos q) (h' : IsAhead text q q') : IsAhead text pos q' := by
  obtain ⟨h₁, h₂⟩ := h
  obtain ⟨h₁', h₂'⟩ := h'
  exact ⟨by omega, by omega⟩

end IsAhead

/-! ### Leaves -/

/-- The text from an offset on has as many characters as there are from there to the end. -/
theorem Text.length_suffixFrom_le (text : List Char) (i : Int) :
    i + (Text.suffixFrom text i).length ≤ max i text.length := by
  cases i with
  | ofNat k =>
    simp only [Text.suffixFrom, List.length_drop, Int.ofNat_eq_natCast]
    omega
  | negSucc k =>
    simp only [Text.suffixFrom, List.length_drop]
    omega

theorem leafResult_isAhead (p : Pattern) (text : List Char) (pos : Integral) :
    IsAhead text pos (leafResult p text pos).offset := by
  unfold leafResult
  simp only
  split
  · exact .refl text pos
  · split
    · exact .refl text pos
    · rename_i found hfound
      have hlen := (p.within hfound).length_le
      have hend := Text.length_suffixFrom_le text pos.toInt
      refine ⟨?_, ?_⟩ <;> simp only [Result.offset, Integral.toInt_advance] <;> omega

/-! ### All rules -/

/-- The ending, if it is a result, is ahead of the offset. -/
def Finish.IsAheadOf (text : List Char) (pos : Integral) : Finish → Prop
  | .ok r => IsAhead text pos r.offset
  | .error _ => True

namespace Finish

variable {text : List Char} {pos q : Integral} {e : Finish}

theorem IsAheadOf.from (h : IsAhead text pos q) (he : e.IsAheadOf text q) :
    e.IsAheadOf text pos := by
  cases e with
  | ok r => exact h.trans he
  | error f => trivial

theorem IsAheadOf.after (tokens : List Value) (he : e.IsAheadOf text pos) :
    (e.after tokens).IsAheadOf text pos := by
  rcases e with f | ⟨more, q⟩ | ⟨q, c⟩ <;> exact he

theorem ofRounds_isAheadOf (least : Integral) (tokens : List Value) (cur : Integral)
    (count : Nat) : (ofRounds least tokens cur count).IsAheadOf text cur := by
  unfold ofRounds
  split
  · split
    · exact .refl text cur
    · trivial
  · exact .refl text cur

theorem ofSettled_isAheadOf (least most : Integral) (tokens round : List Value) (cur : Integral)
    (count : Nat) : (ofSettled least most tokens round cur count).IsAheadOf text cur := by
  unfold ofSettled
  cases Value.repeatItems round (most.toInt - count) with
  | ok more => exact ofRounds_isAheadOf ..
  | error f => trivial

end Finish

variable {slots : Slots} {text : List Char}

/-- **A rule goes ahead and stays in the text.** -/
theorem Derives.isAhead {t : Task} {e : Finish} (h : Derives slots text t e) :
    e.IsAheadOf text t.offset := by
  induction h with
  | leaf => exact leafResult_isAhead ..
  | empty => exact .refl text _
  | seqStop _ _ ih => exact ih
  | seq _ _ ihl ihr => exact (ihr.from ihl).after _
  | choiceLeft _ _ ih => exact ih
  | choiceRight _ _ _ ihr => exact ihr
  | rep _ ih => exact ih
  | roundsFull _ => exact Finish.ofRounds_isAheadOf ..
  | roundsOver _ _ _ => exact Finish.ofRounds_isAheadOf ..
  | roundsFault _ _ _ => trivial
  | roundsNext _ _ _ _ ih ihr => exact ihr.from ih
  | roundsFree _ _ _ => exact .refl text _
  | roundsSettled _ _ _ _ => exact Finish.ofSettled_isAheadOf ..
  | mapStop _ _ ih => exact ih
  | @map id child action pos q tokens _ ih =>
    cases action.newTokens tokens with
    | ok tokens => exact ih
    | error f => trivial
  | spliceStop _ _ ih => exact ih
  | spliceEmpty _ _ _ => trivial
  | splice _ _ _ ihb iht => exact (iht.from ihb).after _

/-- Where a node succeeds it has gone ahead. -/
theorem Derives.isAhead_of_success {n : Node} {pos q : Integral} {tokens : List Value}
    (h : Derives slots text (.node n pos) (.ok (.success tokens q))) : IsAhead text pos q :=
  h.isAhead

end LeafGrammar
