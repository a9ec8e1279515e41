import LeafGrammar.Proofs.Engine.Offsets
import LeafGrammar.Proofs.Engine.Refinement
import LeafGrammar.Proofs.Engine.Visits

/-!
# Offsets along a run

A run keeps offsets in three places: where it is, in the choices that it may go back to, and in
the repetitions that are under way. No move makes up an offset. Each one was there before the move,
or is where a leaf has got to from one that was there (`Machine.step_offsets`). So whatever is true
of the offset that a run starts from, and is kept by leaves, is true of every offset that the run
comes to (`Machine.forall_offsets_of_onward`).

A leaf goes ahead and stays in the text. Hence so does every node that is visited, however deep and
after however many attempts that failed, in a run that ends and in one that does not
(`offsets_in_range`).
-/

namespace LeafGrammar

namespace Machine

variable {slots : Slots} {text : List Char}

/-! ### One move -/

/-- The offset that a frame goes back to, if it does. -/
def Frame.offsets : Frame → List Integral
  | .choiceLeft _ pos => [pos]
  | .rep _ _ _ _ cur _ => [cur]
  | _ => []

/-- The offsets on a stack. -/
def stackOffsets (stack : List Frame) : List Integral := stack.flatMap Frame.offsets

/-- The offsets of a state: where the machine is, and those on its stack. -/
def State.offsets : State → List Integral
  | .visit _ pos stack => pos :: stackOffsets stack
  | .give r stack => r.offset :: stackOffsets stack

@[simp] theorem stackOffsets_cons (frame : Frame) (stack : List Frame) :
    stackOffsets (frame :: stack) = frame.offsets ++ stackOffsets stack := rfl

/-- The offsets of the next state, if there is one, are among these. -/
def Move.OffsetsIn (offsets : List Integral) : Move → Prop
  | .next s => s.offsets ⊆ offsets
  | .done _ | .raised _ => True

theorem Move.OffsetsIn.mono {offsets more : List Integral} {m : Move} (h : m.OffsetsIn offsets)
    (hsub : offsets ⊆ more) : m.OffsetsIn more := by
  cases m with
  | next s => exact List.Subset.trans h hsub
  | done r => trivial
  | raised f => trivial

theorem finishRep_offsets (least : Integral) (tokens : List Value) (cur : Integral) (count : Nat)
    (stack : List Frame) :
    (finishRep least tokens cur count stack).OffsetsIn (cur :: stackOffsets stack) := by
  unfold finishRep
  split
  · split
    · exact List.Subset.refl _
    · trivial
  · exact List.Subset.refl _

theorem continueRep_offsets (child : Node) (least : Integral) (most : Option Integral)
    (tokens : List Value) (cur : Integral) (count : Nat) (stack : List Frame) :
    (continueRep child least most tokens cur count stack).OffsetsIn
      (cur :: stackOffsets stack) := by
  unfold continueRep
  split
  · simp [Move.OffsetsIn, State.offsets, Frame.offsets]
  · exact finishRep_offsets ..

theorem settleRep_offsets (least : Integral) (most : Option Integral) (all round : List Value)
    (cur : Integral) (count : Nat) (stack : List Frame) :
    (settleRep least most all round cur count stack).OffsetsIn (cur :: stackOffsets stack) := by
  unfold settleRep
  cases most with
  | none => exact List.Subset.refl _
  | some m =>
    simp only
    cases Value.repeatItems round (m.toInt - count) with
    | ok more => exact finishRep_offsets ..
    | error f => trivial

/-- Starting on a node adds no offset, but that a leaf answers at once. -/
theorem enter_offsets (text : List Char) (node : Node) (pos : Integral) (stack : List Frame) :
    (enter text node pos stack).OffsetsIn (pos :: stackOffsets stack) ∨
      ∃ p : Pattern, (enter text node pos stack).OffsetsIn
        ((leafResult p text pos).offset :: stackOffsets stack) := by
  cases node with
  | leaf id p => exact .inr ⟨p, List.Subset.refl _⟩
  | empty id => exact .inl (List.Subset.refl _)
  | rep id child least most => exact .inl (continueRep_offsets ..)
  | _ => exact .inl (by simp [enter, Move.OffsetsIn, State.offsets, Frame.offsets])

/-- Handing a result to a frame adds none. -/
theorem resume_offsets (slots : Slots) (frame : Frame) (r : Result) (stack : List Frame) :
    (resume slots frame r stack).OffsetsIn (r.offset :: stackOffsets (frame :: stack)) := by
  have hrest (q : Integral) : q :: stackOffsets stack ⊆ q :: stackOffsets (frame :: stack) := by
    simp
  cases r with
  | success tokens pos =>
    cases frame with
    | rep child least most before cur count =>
      simp only [resume]
      split
      · refine (settleRep_offsets ..).mono ?_
        simp [Frame.offsets]
      · exact (continueRep_offsets ..).mono (hrest pos)
    | map action =>
      simp only [resume]
      split
      · exact hrest pos
      · trivial
    | spliceBase slot =>
      simp only [resume]
      split
      · trivial
      · exact hrest pos
    | _ => exact hrest pos
  | failure pos c =>
    cases frame with
    | choiceLeft right start => simp [resume, Move.OffsetsIn, State.offsets, Frame.offsets]
    | rep child least most before cur count =>
      refine (finishRep_offsets ..).mono ?_
      simp [Frame.offsets]
    | _ => exact hrest pos

/-- **No move makes up an offset**: it was there before, or a leaf has got to it from one that
was. -/
theorem step_offsets {s s' : State} (h : step slots text s = .next s') {q : Integral}
    (hq : q ∈ s'.offsets) :
    q ∈ s.offsets ∨ ∃ p : Pattern, ∃ pos ∈ s.offsets, q = (leafResult p text pos).offset := by
  match s with
  | .visit node pos stack =>
    rcases enter_offsets text node pos stack with hin | ⟨p, hin⟩
    · have hsub : (Move.next s').OffsetsIn (pos :: stackOffsets stack) := h ▸ hin
      exact .inl (hsub hq)
    · have hsub : (Move.next s').OffsetsIn
          ((leafResult p text pos).offset :: stackOffsets stack) := h ▸ hin
      rcases List.mem_cons.mp (hsub hq) with rfl | hq
      · exact .inr ⟨p, pos, List.mem_cons_self, rfl⟩
      · exact .inl (List.mem_cons_of_mem _ hq)
  | .give r [] => cases h
  | .give r (frame :: stack) =>
    have hsub : (Move.next s').OffsetsIn (r.offset :: stackOffsets (frame :: stack)) :=
      h ▸ resume_offsets slots frame r stack
    exact .inl (hsub hq)

/-! ### A whole run -/

/-- What leaves keep is true of all offsets of a run if it is true of the first one. -/
theorem forall_offsets_of_onward {P : Integral → Prop}
    (hleaf : ∀ (p : Pattern) (q : Integral), P q → P (leafResult p text q).offset) {s s' : State}
    (hs : ∀ q ∈ s.offsets, P q) (h : Onward slots text s s') : ∀ q ∈ s'.offsets, P q := by
  induction h with
  | refl => exact hs
  | tail _ hstep ih =>
    intro q hq
    rcases step_offsets hstep hq with hq | ⟨p, pos, hpos, rfl⟩
    · exact ih q hq
    · exact hleaf p pos (ih pos hpos)

/-- **A run goes ahead and stays in the text**, at every node that it visits. -/
theorem isAhead_of_onward {root n : Node} {pos q : Integral} {stack : List Frame}
    (h : Onward slots text (.visit root pos []) (.visit n q stack)) : IsAhead text pos q := by
  refine forall_offsets_of_onward (P := IsAhead text pos) ?_ ?_ h q List.mem_cons_self
  · exact fun p q hq => hq.trans (leafResult_isAhead p text q)
  · intro q hq
    rw [List.mem_singleton.mp hq]
    exact .refl text pos

end Machine

/-- Behind the end of the text there is nowhere to go. -/
theorem IsAhead.eq_of_length_le {text : List Char} {pos q : Integral} (h : IsAhead text pos q)
    (hend : text.length ≤ pos.toInt) : q.toInt = pos.toInt := by
  have hle := h.le
  have hle_end := h.le_end
  omega

/-- **Offsets only go ahead, and not out of the text.** A result, in whatever journal it is come
to, has its offset between the one that the run was started from and the end of the text, and so
has every node below the root at the time that the run visits it. A run that is started at the end
of the text or behind it does not move at all. -/
theorem offsets_in_range (slots : Slots) (text : List Char) (root : Node) (pos : Integral) :
    (∀ (fuel : Nat) (j : Journal) (r : Result),
        (evaluateIn fuel slots text root pos j).1 = .value r →
          pos.toInt ≤ r.offset.toInt ∧ r.offset.toInt ≤ max pos.toInt text.length) ∧
      (∀ (n : Node) (q : Integral) (stack : List Machine.Frame),
        Machine.Onward slots text (.visit root pos []) (.visit n q stack) →
          root.Reaches slots n ∧ pos.toInt ≤ q.toInt ∧ q.toInt ≤ max pos.toInt text.length) ∧
      (text.length ≤ pos.toInt →
        (∀ (fuel : Nat) (j : Journal) (r : Result),
          (evaluateIn fuel slots text root pos j).1 = .value r →
            r.offset.toInt = pos.toInt) ∧
        ∀ (n : Node) (q : Integral) (stack : List Machine.Frame),
          Machine.Onward slots text (.visit root pos []) (.visit n q stack) →
            q.toInt = pos.toInt) := by
  have hresult (fuel : Nat) (j : Journal) (r : Result)
      (h : (evaluateIn fuel slots text root pos j).1 = .value r) : IsAhead text pos r.offset := by
    have hd : Derives slots text (.node root pos) (.ok r) :=
      Machine.exists_evaluate_eq_iff.mp ⟨fuel, evaluateIn_value h⟩
    exact hd.isAhead
  refine ⟨fun fuel j r h => ?_, fun n q stack h => ?_, fun hend => ⟨fun fuel j r h => ?_,
    fun n q stack h => ?_⟩⟩
  · exact ⟨(hresult fuel j r h).le, (hresult fuel j r h).le_end⟩
  · have hwithin := Machine.isWithin_of_onward h
    have hahead := Machine.isAhead_of_onward h
    exact ⟨hwithin.1, hahead.le, hahead.le_end⟩
  · exact (hresult fuel j r h).eq_of_length_le hend
  · exact (Machine.isAhead_of_onward h).eq_of_length_le hend

end LeafGrammar
