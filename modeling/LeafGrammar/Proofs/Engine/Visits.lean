import LeafGrammar.Proofs.Engine.Showing
import LeafGrammar.Proofs.Rule.Graph

/-!
# What a run comes to

Two facts about all the states that the machine goes through. Every node that it
visits, and every node that a frame on its stack stands for, can be reached from the
node it was started on (`isWithin_of_onward`). And there are few ways for a move to
raise a fault (`step_raised`): a bound or a count that is too large, an action that
faults, an injection point with an empty slot. A trace adds none to them: an integer
that cannot be shown is a bound that is too large (`runTraced_raised`).
-/

namespace LeafGrammar

open Relation

namespace Machine

variable {slots : Slots} {text : List Char} {root : Node}

/-! ### Nodes -/

/-- The states that the machine comes to from a state. -/
def Onward (slots : Slots) (text : List Char) : State → State → Prop :=
  ReflTransGen fun s s' => step slots text s = .next s'

/-- The nodes that a frame stands for can be reached from the root. -/
def Frame.IsWithin (slots : Slots) (root : Node) : Frame → Prop
  | .seqLeft right | .choiceLeft right _ => root.Reaches slots right
  | .rep child _ _ _ _ _ => root.Reaches slots child
  | .map action => ∃ id child, root.Reaches slots (.map id child action)
  | .spliceBase slot => ∃ id base, root.Reaches slots (.splice id base slot)
  | .seqRight _ | .choiceRight | .spliceTarget _ => True

/-- All nodes of a state can be reached from the root. -/
def State.IsWithin (slots : Slots) (root : Node) : State → Prop
  | .visit node _ stack => root.Reaches slots node ∧ ∀ f ∈ stack, f.IsWithin slots root
  | .give _ stack => ∀ f ∈ stack, f.IsWithin slots root

/-- The next state, if there is one, is within the reach of the root. -/
def Move.IsWithin (slots : Slots) (root : Node) : Move → Prop
  | .next s => s.IsWithin slots root
  | .done _ | .raised _ => True

theorem finishRep_isWithin (least : Integral) (tokens : List Value) (cur : Integral) (count : Nat)
    {stack : List Frame} (hs : ∀ f ∈ stack, f.IsWithin slots root) :
    (finishRep least tokens cur count stack).IsWithin slots root := by
  unfold finishRep
  split
  · split
    · exact hs
    · trivial
  · exact hs

theorem continueRep_isWithin {child : Node} (least : Integral) (most : Option Integral)
    (tokens : List Value) (cur : Integral) (count : Nat) {stack : List Frame}
    (hc : root.Reaches slots child) (hs : ∀ f ∈ stack, f.IsWithin slots root) :
    (continueRep child least most tokens cur count stack).IsWithin slots root := by
  unfold continueRep
  split
  · refine ⟨hc, ?_⟩
    rintro f (_ | ⟨_, hf⟩)
    · exact hc
    · exact hs f hf
  · exact finishRep_isWithin _ _ _ _ hs

theorem settleRep_isWithin (least : Integral) (most : Option Integral) (all round : List Value)
    (cur : Integral) (count : Nat) {stack : List Frame}
    (hs : ∀ f ∈ stack, f.IsWithin slots root) :
    (settleRep least most all round cur count stack).IsWithin slots root := by
  unfold settleRep
  split
  · exact hs
  · split
    · exact finishRep_isWithin _ _ _ _ hs
    · trivial

theorem enter_isWithin {node : Node} (pos : Integral) {stack : List Frame}
    (hn : root.Reaches slots node) (hs : ∀ f ∈ stack, f.IsWithin slots root) :
    (enter text node pos stack).IsWithin slots root := by
  have push {f : Frame} (hf : f.IsWithin slots root) : ∀ g ∈ f :: stack, g.IsWithin slots root := by
    rintro g (_ | ⟨_, hg⟩)
    · exact hf
    · exact hs g hg
  cases node with
  | leaf id p => exact hs
  | empty id => exact hs
  | seq id l r => exact ⟨hn.part (by simp [Node.parts]), push (hn.part (by simp [Node.parts]))⟩
  | choice id l r => exact ⟨hn.part (by simp [Node.parts]), push (hn.part (by simp [Node.parts]))⟩
  | rep id child least most =>
    exact continueRep_isWithin _ _ _ _ _ (hn.part (by simp [Node.parts])) hs
  | map id child action => exact ⟨hn.part (by simp [Node.parts]), push ⟨id, child, hn⟩⟩
  | splice id base slot => exact ⟨hn.part (by simp [Node.parts]), push ⟨id, base, hn⟩⟩

theorem resume_isWithin {frame : Frame} (r : Result) {stack : List Frame}
    (hf : frame.IsWithin slots root) (hs : ∀ f ∈ stack, f.IsWithin slots root) :
    (resume slots frame r stack).IsWithin slots root := by
  have push {f : Frame} (hf : f.IsWithin slots root) : ∀ g ∈ f :: stack, g.IsWithin slots root := by
    rintro g (_ | ⟨_, hg⟩)
    · exact hf
    · exact hs g hg
  unfold resume
  split
  · exact ⟨hf, push trivial⟩
  · exact hs
  · exact ⟨hf, push trivial⟩
  · simp only
    split
    · exact settleRep_isWithin _ _ _ _ _ _ hs
    · exact continueRep_isWithin _ _ _ _ _ hf hs
  · exact finishRep_isWithin _ _ _ _ hs
  · split
    · exact hs
    · trivial
  · -- the node in the slot is a child of the injection point that the frame stands for
    split
    · trivial
    · rename_i target ht
      obtain ⟨id, base, hb⟩ := hf
      refine ⟨hb.child ?_, push trivial⟩
      simp [Node.children, ht]
  · exact hs
  · exact hs

/-- One move stays within the reach of the root. -/
theorem step_isWithin (text : List Char) {s : State} (h : s.IsWithin slots root) :
    (step slots text s).IsWithin slots root := by
  match s, h with
  | .visit node pos stack, h => exact enter_isWithin pos h.1 h.2
  | .give r [], _ => trivial
  | .give r (frame :: stack), h =>
    exact resume_isWithin r (h frame (by simp)) fun f hf => h f (by simp [hf])

/-- **A run stays within the reach of the node it was started on.** -/
theorem isWithin_of_onward {pos : Integral} {s : State}
    (h : Onward slots text (.visit root pos []) s) : s.IsWithin slots root := by
  induction h with
  | refl => exact ⟨.refl, by simp⟩
  | tail _ hstep ih =>
    have := step_isWithin text ih
    rw [hstep] at this
    exact this

/-! ### Faults -/

/-- The state at which the machine raises the fault of an unresolved injection point: the
base has succeeded and the slot is empty. -/
def State.AtUnresolved (slots : Slots) : State → Prop
  | .give (.success _ _) (.spliceBase slot :: _) => slots.target? slot = none
  | _ => False

/-- The state at which tokens are given to an action that faults. -/
def State.AtFaultingAction (f : Fault) (action : Action) : State → Prop
  | .give (.success tokens _) (.map a :: _) =>
    a = action ∧ action.newTokens tokens = .error f
  | _ => False

theorem finishRep_raised {least : Integral} {tokens : List Value} {cur : Integral} {count : Nat}
    {stack : List Frame} {f : Fault} (h : finishRep least tokens cur count stack = .raised f) :
    f = .value .tooManyDigitsToShow := by
  unfold finishRep at h
  split at h
  · split at h <;> cases h
    rfl
  · cases h

theorem continueRep_raised {child : Node} {least : Integral} {most : Option Integral}
    {tokens : List Value} {cur : Integral} {count : Nat} {stack : List Frame} {f : Fault}
    (h : continueRep child least most tokens cur count stack = .raised f) :
    f = .value .tooManyDigitsToShow := by
  unfold continueRep at h
  split at h
  · cases h
  · exact finishRep_raised h

theorem settleRep_raised {least : Integral} {most : Option Integral} {all round : List Value}
    {cur : Integral} {count : Nat} {stack : List Frame} {f : Fault}
    (h : settleRep least most all round cur count stack = .raised f) :
    f = .value .tooManyDigitsToShow ∨ f = .overflow .repetitionCount := by
  unfold settleRep at h
  split at h
  · cases h
  · split at h
    · exact .inl (finishRep_raised h)
    · rename_i he
      right
      unfold Value.repeatItems at he
      split at he
      · cases he
        cases h
        rfl
      · split at he <;> cases he
        cases h
        rfl

/-- **What a move can raise**: a bound or a count that is too large, an action's own fault, or
an empty slot. -/
theorem step_raised {s : State} {f : Fault} (h : step slots text s = .raised f) :
    f = .value .tooManyDigitsToShow ∨ f = .overflow .repetitionCount ∨
      (∃ action, s.AtFaultingAction f action) ∨
        s.AtUnresolved slots ∧ f = .grammar .reachedUnresolved := by
  match s, h with
  | .visit node pos stack, h =>
    cases node with
    | rep id child least most => exact .inl (continueRep_raised h)
    | _ => cases h
  | .give r [], h => cases h
  | .give r (frame :: stack), h =>
    rw [step] at h
    unfold resume at h
    split at h
    · cases h
    · cases h
    · cases h
    · simp only at h
      split at h
      · rcases settleRep_raised h with h | h
        · exact .inl h
        · exact .inr (.inl h)
      · exact .inl (continueRep_raised h)
    · exact .inl (finishRep_raised h)
    · split at h
      · cases h
      · rename_i ht
        cases h
        exact .inr (.inr (.inl ⟨_, rfl, ht⟩))
    · split at h
      · rename_i hslot
        cases h
        exact .inr (.inr (.inr ⟨hslot, rfl⟩))
      · cases h
    · cases h
    · cases h

/-- A run that raises a fault comes to a state whose move raises it. -/
theorem run_raised {fuel : Nat} {s : State} {f : Fault} (h : run slots text fuel s = .raised f) :
    ∃ s', Onward slots text s s' ∧ step slots text s' = .raised f := by
  induction fuel generalizing s with
  | zero => cases h
  | succ fuel ih =>
    rw [run] at h
    split at h
    · rename_i s₁ hs
      obtain ⟨s', hon, hf⟩ := ih h
      exact ⟨s', .head hs hon, hf⟩
    · cases h
    · rename_i hs
      cases h
      exact ⟨s, .refl, hs⟩

/-- So does a run with a trace, unless something in the trace cannot be shown. -/
theorem runTraced_raised {fuel : Nat} {s : State} {j : Journal} {f : Fault}
    (h : (runTraced slots text fuel s j).1 = .raised f) :
    f = .value .tooManyDigitsToShow ∨
      ∃ s', Onward slots text s s' ∧ step slots text s' = .raised f := by
  induction fuel generalizing s j with
  | zero => cases h
  | succ fuel ih =>
    rw [runTraced] at h
    split at h
    · rename_i hr
      cases h
      exact .inl (FaultsOver.report s j _ hr).1
    · split at h
      · rename_i s₁ hs
        rcases ih h with hf | ⟨s', hon, hf⟩
        · exact .inl hf
        · exact .inr ⟨s', .head hs hon, hf⟩
      · cases h
      · rename_i hs
        cases h
        exact .inr ⟨s, .refl, hs⟩

end Machine

/-- A run with a trace that ends with a result is one without. -/
theorem Machine.runTraced_value {slots : Slots} {text : List Char} {fuel : Nat} {s : Machine.State}
    {j : Journal} {r : Result} (h : (Machine.runTraced slots text fuel s j).1 = .value r) :
    Machine.run slots text fuel s = .value r := by
  induction fuel generalizing s j with
  | zero => cases h
  | succ fuel ih =>
    rw [runTraced] at h
    split at h
    · cases h
    · split at h
      · rename_i hs
        rw [run, hs]
        exact ih h
      · rename_i hs
        rw [run, hs]
        cases h
        rfl
      · cases h

/-- A run in a journal that ends with a result, with a trace or without. -/
theorem evaluateIn_value {fuel : Nat} {slots : Slots} {text : List Char} {node : Node}
    {pos : Integral} {j : Journal} {r : Result}
    (h : (evaluateIn fuel slots text node pos j).1 = .value r) :
    evaluate fuel slots text node pos = .value r := by
  unfold evaluateIn at h
  split at h
  · exact Machine.runTraced_value h
  · exact h

/-- A run in a journal that raises a fault, with a trace or without. -/
theorem evaluateIn_raised {fuel : Nat} {slots : Slots} {text : List Char} {node : Node}
    {pos : Integral} {j : Journal} {f : Fault}
    (h : (evaluateIn fuel slots text node pos j).1 = .raised f) :
    f = .value .tooManyDigitsToShow ∨
      ∃ s, Machine.Onward slots text (.visit node pos []) s ∧
        Machine.step slots text s = .raised f := by
  unfold evaluateIn at h
  split at h
  · exact Machine.runTraced_raised h
  · exact .inr (Machine.run_raised h)

end LeafGrammar
