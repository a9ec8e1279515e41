import LeafGrammar.Proofs.Engine.Offsets
import LeafGrammar.Proofs.Engine.Refinement
import LeafGrammar.Proofs.Engine.Visits

/-!
# What the frames wait for

In the middle of a run a stack of frames waits for the result of a node. Each frame stands for a
node that the run has started on and not yet ended, and what has been done of it so far is kept as
derivations: `Waits slots text root pos stack n p` is a derivation for `root` at `pos` with a hole
in it for the node `n` at `p`.

Every move keeps this up (`Machine.step_isSound`), also where a choice gives up what it has done. So
whatever is handed to a frame, in a run that ends or in one that does not, is a result of the node
that the frame waits for (`Machine.isSound_of_onward`), and the tokens that an action is given are
those of its rule (`Machine.Hands.exists_derives`).
-/

namespace LeafGrammar

namespace Machine

variable {slots : Slots} {text : List Char} {root : Node} {pos : Integral}

/-- The stack waits for the node at the offset, in a run from the root at `pos`. -/
inductive Waits (slots : Slots) (text : List Char) (root : Node) (pos : Integral) :
    List Frame → Node → Integral → Prop where
  /-- Nothing waits for the root. -/
  | root : Waits slots text root pos [] root pos
  | seqLeft {stack : List Frame} {id : NodeId} {l r : Node} {p : Integral} :
      Waits slots text root pos stack (.seq id l r) p →
        Waits slots text root pos (.seqLeft r :: stack) l p
  | seqRight {stack : List Frame} {id : NodeId} {l r : Node} {p q : Integral}
      {tokens : List Value} :
      Waits slots text root pos stack (.seq id l r) p →
        Derives slots text (.node l p) (.ok (.success tokens q)) →
          Waits slots text root pos (.seqRight tokens :: stack) r q
  | choiceLeft {stack : List Frame} {id : NodeId} {l r : Node} {p : Integral} :
      Waits slots text root pos stack (.choice id l r) p →
        Waits slots text root pos (.choiceLeft r p :: stack) l p
  | choiceRight {stack : List Frame} {id : NodeId} {l r : Node} {p q : Integral}
      {c : Option Complaint} :
      Waits slots text root pos stack (.choice id l r) p →
        Derives slots text (.node l p) (.ok (.failure q c)) →
          Waits slots text root pos (.choiceRight :: stack) r p
  /-- The rounds that have been made are kept as what is left to derive. -/
  | rep {stack : List Frame} {id : NodeId} {child : Node} {least : Integral}
      {most : Option Integral} {p cur : Integral} {tokens : List Value} {count : Nat} :
      Waits slots text root pos stack (.rep id child least most) p → IsAhead text p cur →
        mayGoOn most count = true →
          (∀ e, Derives slots text (.rounds child least most tokens cur count) e →
            Derives slots text (.node (.rep id child least most) p) e) →
              Waits slots text root pos (.rep child least most tokens cur count :: stack) child cur
  | map {stack : List Frame} {id : NodeId} {child : Node} {action : Action} {p : Integral} :
      Waits slots text root pos stack (.map id child action) p →
        Waits slots text root pos (.map action :: stack) child p
  | spliceBase {stack : List Frame} {id : NodeId} {base : Node} {slot : SlotId} {p : Integral} :
      Waits slots text root pos stack (.splice id base slot) p →
        Waits slots text root pos (.spliceBase slot :: stack) base p
  | spliceTarget {stack : List Frame} {id : NodeId} {base target : Node} {slot : SlotId}
      {p q : Integral} {tokens : List Value} :
      Waits slots text root pos stack (.splice id base slot) p →
        Derives slots text (.node base p) (.ok (.success tokens q)) →
          slots.target? slot = some target →
            Waits slots text root pos (.spliceTarget tokens :: stack) target q

namespace Waits

variable {stack : List Frame} {n : Node} {p : Integral}

/-- What is waited for can be reached from the root. -/
theorem reaches (h : Waits slots text root pos stack n p) : root.Reaches slots n := by
  induction h with
  | root => exact .refl
  | seqLeft _ ih => exact ih.part (by simp [Node.parts])
  | seqRight _ _ ih => exact ih.part (by simp [Node.parts])
  | choiceLeft _ ih => exact ih.part (by simp [Node.parts])
  | choiceRight _ _ ih => exact ih.part (by simp [Node.parts])
  | rep _ _ _ _ ih => exact ih.part (by simp [Node.parts])
  | map _ ih => exact ih.part (by simp [Node.parts])
  | spliceBase _ ih => exact ih.part (by simp [Node.parts])
  | spliceTarget _ _ ht ih => exact ih.child (by simp [Node.children, ht])

theorem isAhead (h : Waits slots text root pos stack n p) : IsAhead text pos p := by
  induction h with
  | root => exact .refl text pos
  | seqLeft _ ih => exact ih
  | seqRight _ hl ih => exact ih.trans hl.isAhead_of_success
  | choiceLeft _ ih => exact ih
  | choiceRight _ _ ih => exact ih
  | rep _ hcur _ _ ih => exact ih.trans hcur
  | map _ ih => exact ih
  | spliceBase _ ih => exact ih
  | spliceTarget _ hb _ ih => exact ih.trans hb.isAhead_of_success

end Waits

/-! ### One move -/

/-- The stack of the state waits for the node that is visited, or for one that has the result. -/
def State.IsSound (slots : Slots) (text : List Char) (root : Node) (pos : Integral) : State → Prop
  | .visit n p stack => Waits slots text root pos stack n p
  | .give r stack =>
    ∃ n p, Waits slots text root pos stack n p ∧ Derives slots text (.node n p) (.ok r)

/-- The next state is sound, if there is one. -/
def Move.IsSound (slots : Slots) (text : List Char) (root : Node) (pos : Integral) : Move → Prop
  | .next s => s.IsSound slots text root pos
  | .done _ | .raised _ => True

variable {stack : List Frame} {n : Node} {p : Integral}

/-- A node that has ended is what its stack has been waiting for. -/
theorem give_isSound (h : Waits slots text root pos stack n p) {e : Finish}
    (hd : Derives slots text (.node n p) e) : (e.give stack).IsSound slots text root pos := by
  cases e with
  | ok r => exact ⟨n, p, h, hd⟩
  | error f => trivial

theorem continueRep_isSound {id : NodeId} {child : Node} {least : Integral}
    {most : Option Integral} {cur : Integral} {tokens : List Value} {count : Nat}
    (h : Waits slots text root pos stack (.rep id child least most) p) (hcur : IsAhead text p cur)
    (hrest : ∀ e, Derives slots text (.rounds child least most tokens cur count) e →
      Derives slots text (.node (.rep id child least most) p) e) :
    (continueRep child least most tokens cur count stack).IsSound slots text root pos := by
  unfold continueRep
  split
  · rename_i hgo
    exact .rep h hcur hgo hrest
  · rename_i hfull
    rw [finishRep_eq]
    exact give_isSound h (hrest _ (.roundsFull (by simpa using hfull)))

theorem enter_isSound (h : Waits slots text root pos stack n p) :
    (enter text n p stack).IsSound slots text root pos := by
  cases n with
  | leaf id pattern => exact ⟨_, p, h, .leaf⟩
  | empty id => exact ⟨_, p, h, .empty⟩
  | seq id l r => exact Waits.seqLeft h
  | choice id l r => exact Waits.choiceLeft h
  | rep id child least most => exact continueRep_isSound h (.refl text p) fun _ => .rep
  | map id child action => exact Waits.map h
  | splice id base slot => exact Waits.spliceBase h

/-- A frame goes on with the result of the node that it waits for. -/
theorem resume_isSound {frame : Frame} {r : Result}
    (h : Waits slots text root pos (frame :: stack) n p)
    (hd : Derives slots text (.node n p) (.ok r)) :
    (resume slots frame r stack).IsSound slots text root pos := by
  cases h with
  | seqLeft h =>
    cases r with
    | success tokens q => exact Waits.seqRight h hd
    | failure q c => exact ⟨_, _, h, .seqStop hd trivial⟩
  | @seqRight _ _ _ _ _ _ tokens h hl =>
    have hheld : (Frame.seqRight tokens).holds tokens := rfl
    rw [resume_of_holds slots hheld]
    exact give_isSound h (.seq hl hd)
  | choiceLeft h =>
    cases r with
    | success tokens q => exact ⟨_, _, h, .choiceLeft hd id⟩
    | failure q c => exact Waits.choiceRight h hd
  | choiceRight h hl => cases r <;> exact ⟨_, _, h, .choiceRight hl hd⟩
  | @rep _ _ _ _ most _ _ _ _ h hcur hgo hrest =>
    cases r with
    | failure q c =>
      simp only [resume]
      rw [finishRep_eq]
      exact give_isSound h (hrest _ (.roundsOver hgo hd))
    | success round q =>
      simp only [resume]
      split
      · rename_i hq
        cases most with
        | none => exact ⟨_, _, h, hrest _ (.roundsFree hd hq)⟩
        | some m =>
          rw [settleRep_some_eq]
          exact give_isSound h (hrest _ (.roundsSettled hgo hd hq))
      · rename_i hq
        exact continueRep_isSound h (hcur.trans hd.isAhead_of_success)
          fun e he => hrest e (.roundsNext hgo hd hq he)
  | map h =>
    cases r with
    | success tokens q =>
      rw [newTokens_eq]
      exact give_isSound h (.map hd)
    | failure q c => exact ⟨_, _, h, .mapStop hd trivial⟩
  | spliceBase h =>
    cases r with
    | success tokens q =>
      simp only [resume]
      split
      · trivial
      · rename_i target ht
        exact Waits.spliceTarget h hd ht
    | failure q c => exact ⟨_, _, h, .spliceStop hd trivial⟩
  | @spliceTarget _ _ _ _ _ _ _ tokens h hb ht =>
    have hheld : (Frame.spliceTarget tokens).holds tokens := rfl
    rw [resume_of_holds slots hheld]
    exact give_isSound h (.splice hb ht hd)

/-- **Every move keeps the stack waiting for what comes.** -/
theorem step_isSound {s : State} (h : s.IsSound slots text root pos) :
    (step slots text s).IsSound slots text root pos := by
  match s, h with
  | .visit n p stack, h => exact enter_isSound h
  | .give r [], _ => trivial
  | .give r (frame :: stack), ⟨n, p, h, hd⟩ => exact resume_isSound h hd

/-! ### A whole run -/

theorem isSound_of_onward {s : State} (h : Onward slots text (.visit root pos []) s) :
    s.IsSound slots text root pos := by
  induction h with
  | refl => exact Waits.root
  | tail _ hstep ih =>
    have hmove := step_isSound ih
    rw [hstep] at hmove
    exact hmove

/-- The run from the root comes to an action with these tokens. -/
def Hands (slots : Slots) (text : List Char) (root : Node) (pos : Integral) (action : Action)
    (tokens : List Value) : Prop :=
  ∃ q stack, Onward slots text (.visit root pos [])
    (.give (.success tokens q) (.map action :: stack))

/-- **The tokens that an action is given are those of its rule.** -/
theorem Hands.exists_derives {action : Action} {tokens : List Value}
    (h : Hands slots text root pos action tokens) :
    ∃ id child p q, root.Reaches slots (.map id child action) ∧ IsAhead text pos p ∧
      Derives slots text (.node child p) (.ok (.success tokens q)) := by
  obtain ⟨q, stack, h⟩ := h
  obtain ⟨n, p, hw, hd⟩ := isSound_of_onward h
  have hahead := hw.isAhead
  cases hw with
  | map hw => exact ⟨_, n, p, q, hw.reaches, hahead, hd⟩

end Machine

end LeafGrammar
