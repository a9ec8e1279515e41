import LeafGrammar.Proofs.Engine.Offsets
import LeafGrammar.Proofs.Rule.Graph
import Mathlib.Data.List.Forall2

/-!
# Runs that are alike

Two nodes are *alike* if they say the same: the numbers of the nodes in them may differ, and so may
the slots, as long as slots that stand in the same places hold nodes that are alike again
(`Node.Alike`, `Slots.Alike`). So grammars that refer back to themselves are compared without being
unfolded.

Likewise a text may stand for another one if leaves and actions cannot tell them apart from an
offset on (`Displacement`).

The runs of nodes that are alike go along with each other move by move (`Machine.step_alike`,
`Machine.run_alike`), so they end alike and after as many moves (`evaluate_alike`).
-/

namespace LeafGrammar

/-! ### Nodes -/

/-- The two nodes say the same, with slots for which `R` holds in the same places. -/
inductive Node.Alike (R : SlotId → SlotId → Prop) : Node → Node → Prop where
  | leaf (i j : NodeId) (p : Pattern) : Alike R (.leaf i p) (.leaf j p)
  | empty (i j : NodeId) : Alike R (.empty i) (.empty j)
  | seq (i j : NodeId) {l' l r' r : Node} :
      Alike R l' l → Alike R r' r → Alike R (.seq i l' r') (.seq j l r)
  | choice (i j : NodeId) {l' l r' r : Node} :
      Alike R l' l → Alike R r' r → Alike R (.choice i l' r') (.choice j l r)
  | rep (i j : NodeId) {c' c : Node} (least : Integral) (most : Option Integral) :
      Alike R c' c → Alike R (.rep i c' least most) (.rep j c least most)
  | map (i j : NodeId) {c' c : Node} (action : Action) :
      Alike R c' c → Alike R (.map i c' action) (.map j c action)
  | splice (i j : NodeId) {b' b : Node} {slot' slot : SlotId} :
      Alike R b' b → R slot' slot → Alike R (.splice i b' slot') (.splice j b slot)

/-- Slots for which `R` holds are both empty, or hold nodes that are alike. -/
def Slots.Alike (R : SlotId → SlotId → Prop) (slots' slots : Slots) : Prop :=
  ∀ slot' slot, R slot' slot →
    Option.Rel (Node.Alike R) (slots'.target? slot') (slots.target? slot)

/-- A node is like itself if the slots of its injection points are. -/
theorem Node.Alike.of_points {R : SlotId → SlotId → Prop} {n : Node} (h : ∀ x ∈ n.points, R x x) :
    n.Alike R n := by
  induction n with
  | leaf id p => exact .leaf id id p
  | empty id => exact .empty id id
  | seq id l r ihl ihr =>
    simp only [points, List.mem_append] at h
    exact .seq id id (ihl fun x hx => h x (.inl hx)) (ihr fun x hx => h x (.inr hx))
  | choice id l r ihl ihr =>
    simp only [points, List.mem_append] at h
    exact .choice id id (ihl fun x hx => h x (.inl hx)) (ihr fun x hx => h x (.inr hx))
  | rep id child least most ih => exact .rep id id least most (ih h)
  | map id child action ih => exact .map id id action (ih h)
  | splice id base slot ih =>
    simp only [points, List.mem_cons, forall_eq_or_imp] at h
    exact .splice id id (ih h.2) h.1

/-! ### Texts -/

/-- The result with its offset moved. -/
def Result.moved (move : Integral → Integral) : Result → Result
  | .success tokens pos => .success tokens (move pos)
  | .failure pos complaint => .failure (move pos) complaint

/-- The ending with its offset, if it is a result, moved. -/
def Outcome.moved (move : Integral → Integral) : Outcome Result → Outcome Result
  | .value r => .value (r.moved move)
  | .raised f => .raised f
  | .outOfFuel => .outOfFuel

/-- A way to read `text'` for `text`: where its offsets are moved to, so that leaves give the same
there. -/
structure Displacement (text' text : List Char) where
  move : Integral → Integral
  /-- The offsets of which this is said. -/
  Covers : Integral → Prop
  toInt_move : ∀ p q, (move p).toInt = (move q).toInt ↔ p.toInt = q.toInt
  leaf : ∀ p pos, Covers pos → leafResult p text' (move pos) = (leafResult p text pos).moved move
  covers_leaf : ∀ p pos, Covers pos → Covers (leafResult p text pos).offset

theorem Result.moved_id (r : Result) : r.moved id = r := by
  cases r <;> rfl

theorem Outcome.moved_id (o : Outcome Result) : o.moved id = o := by
  cases o with
  | value r => rw [moved, Result.moved_id]
  | raised f => rfl
  | outOfFuel => rfl

/-- The text itself. -/
def Displacement.none (text : List Char) : Displacement text text where
  move := id
  Covers _ := True
  toInt_move _ _ := Iff.rfl
  leaf _ _ _ := (Result.moved_id _).symm
  covers_leaf _ _ _ := trivial

namespace Machine

/-! ### Two runs side by side -/

variable {text' text : List Char}

/-- `f'.Alike d R f`: the frame `f'` waits in the one run where `f` waits in the other. -/
inductive Frame.Alike (d : Displacement text' text) (R : SlotId → SlotId → Prop) :
    Frame → Frame → Prop where
  | seqLeft {n' n : Node} : n'.Alike R n → Alike d R (.seqLeft n') (.seqLeft n)
  | seqRight (tokens : List Value) : Alike d R (.seqRight tokens) (.seqRight tokens)
  | choiceLeft {n' n : Node} {pos : Integral} : n'.Alike R n → d.Covers pos →
      Alike d R (.choiceLeft n' (d.move pos)) (.choiceLeft n pos)
  | choiceRight : Alike d R .choiceRight .choiceRight
  | rep {n' n : Node} (least : Integral) (most : Option Integral) (tokens : List Value)
      {cur : Integral} (count : Nat) : n'.Alike R n → d.Covers cur →
      Alike d R (.rep n' least most tokens (d.move cur) count) (.rep n least most tokens cur count)
  | map (action : Action) : Alike d R (.map action) (.map action)
  | spliceBase {slot' slot : SlotId} : R slot' slot →
      Alike d R (.spliceBase slot') (.spliceBase slot)
  | spliceTarget (tokens : List Value) : Alike d R (.spliceTarget tokens) (.spliceTarget tokens)

/-- The states that the two runs are in after the same number of moves. -/
inductive State.Alike (d : Displacement text' text) (R : SlotId → SlotId → Prop) :
    State → State → Prop where
  | visit {n' n : Node} {pos : Integral} {stack' stack : List Frame} :
      n'.Alike R n → d.Covers pos → List.Forall₂ (Frame.Alike d R) stack' stack →
        Alike d R (.visit n' (d.move pos) stack') (.visit n pos stack)
  | give {r : Result} {stack' stack : List Frame} :
      d.Covers r.offset → List.Forall₂ (Frame.Alike d R) stack' stack →
        Alike d R (.give (r.moved d.move) stack') (.give r stack)

/-- The moves from such states. -/
inductive Move.Alike (d : Displacement text' text) (R : SlotId → SlotId → Prop) :
    Move → Move → Prop where
  | next {s' s : State} : s'.Alike d R s → Alike d R (.next s') (.next s)
  | done (r : Result) : Alike d R (.done (r.moved d.move)) (.done r)
  | raised (f : Fault) : Alike d R (.raised f) (.raised f)

variable {d : Displacement text' text} {R : SlotId → SlotId → Prop} {stack' stack : List Frame}

theorem finishRep_alike (least : Integral) (tokens : List Value) {cur : Integral} (count : Nat)
    (hcur : d.Covers cur) (hs : List.Forall₂ (Frame.Alike d R) stack' stack) :
    (finishRep least tokens (d.move cur) count stack').Alike d R
      (finishRep least tokens cur count stack) := by
  unfold finishRep
  split_ifs
  · exact .next (.give (r := .failure cur _) hcur hs)
  · exact .raised _
  · exact .next (.give (r := .success tokens cur) hcur hs)

theorem continueRep_alike {n' n : Node} (least : Integral) (most : Option Integral)
    (tokens : List Value) {cur : Integral} (count : Nat) (hn : n'.Alike R n)
    (hcur : d.Covers cur) (hs : List.Forall₂ (Frame.Alike d R) stack' stack) :
    (continueRep n' least most tokens (d.move cur) count stack').Alike d R
      (continueRep n least most tokens cur count stack) := by
  unfold continueRep
  split_ifs
  · exact .next (.visit hn hcur (.cons (.rep least most tokens count hn hcur) hs))
  · exact finishRep_alike _ _ _ hcur hs

theorem settleRep_alike (least : Integral) (most : Option Integral) (all round : List Value)
    {cur : Integral} (count : Nat) (hcur : d.Covers cur)
    (hs : List.Forall₂ (Frame.Alike d R) stack' stack) :
    (settleRep least most all round (d.move cur) count stack').Alike d R
      (settleRep least most all round cur count stack) := by
  unfold settleRep
  cases most with
  | none => exact .next (.give (r := .success all cur) hcur hs)
  | some m =>
    simp only
    cases Value.repeatItems round (m.toInt - count) with
    | ok more => exact finishRep_alike _ _ _ hcur hs
    | error f => exact .raised f

theorem enter_alike {n' n : Node} {pos : Integral} (hn : n'.Alike R n) (hpos : d.Covers pos)
    (hs : List.Forall₂ (Frame.Alike d R) stack' stack) :
    (enter text' n' (d.move pos) stack').Alike d R (enter text n pos stack) := by
  cases hn with
  | leaf i j p =>
    simp only [enter, d.leaf p pos hpos]
    exact .next (.give (d.covers_leaf p pos hpos) hs)
  | empty i j => exact .next (.give (r := .success [] pos) hpos hs)
  | seq i j hl hr => exact .next (.visit hl hpos (.cons (.seqLeft hr) hs))
  | choice i j hl hr => exact .next (.visit hl hpos (.cons (.choiceLeft hr hpos) hs))
  | rep i j least most hc => exact continueRep_alike least most [] 0 hc hpos hs
  | map i j action hc => exact .next (.visit hc hpos (.cons (.map action) hs))
  | splice i j hb hslot => exact .next (.visit hb hpos (.cons (.spliceBase hslot) hs))

variable {slots' slots : Slots}

theorem resume_failure_alike {frame' frame : Frame} {pos : Integral} (c : Option Complaint)
    (hf : frame'.Alike d R frame) (hpos : d.Covers pos)
    (hs : List.Forall₂ (Frame.Alike d R) stack' stack) :
    (resume slots' frame' (.failure (d.move pos) c) stack').Alike d R
      (resume slots frame (.failure pos c) stack) := by
  cases hf with
  | choiceLeft hn hstart => exact .next (.visit hn hstart (.cons .choiceRight hs))
  | rep least most tokens count hn hcur => exact finishRep_alike _ _ _ hcur hs
  | _ => exact .next (.give (r := .failure pos c) hpos hs)

theorem resume_success_alike (hslots : slots'.Alike R slots) {frame' frame : Frame}
    {pos : Integral} (more : List Value) (hf : frame'.Alike d R frame) (hpos : d.Covers pos)
    (hs : List.Forall₂ (Frame.Alike d R) stack' stack) :
    (resume slots' frame' (.success more (d.move pos)) stack').Alike d R
      (resume slots frame (.success more pos) stack) := by
  cases hf with
  | seqLeft hn => exact .next (.visit hn hpos (.cons (.seqRight more) hs))
  | seqRight tokens => exact .next (.give (r := .success (tokens ++ more) pos) hpos hs)
  | choiceLeft hn hstart => exact .next (.give (r := .success more pos) hpos hs)
  | choiceRight => exact .next (.give (r := .success more pos) hpos hs)
  | rep least most tokens count hn hcur =>
    -- whether the round has gone on is the same question in both
    simp only [resume, d.toInt_move]
    split_ifs
    · exact settleRep_alike _ _ _ _ _ hcur hs
    · exact continueRep_alike _ _ _ _ hn hpos hs
  | map action =>
    simp only [resume]
    cases action.newTokens more with
    | ok tokens => exact .next (.give (r := .success tokens pos) hpos hs)
    | error f => exact .raised f
  | @spliceBase slot' slot hslot =>
    have htarget := hslots slot' slot hslot
    simp only [resume]
    generalize slots'.target? slot' = target' at htarget
    generalize slots.target? slot = target at htarget
    cases htarget with
    | none => exact .raised _
    | some hn => exact .next (.visit hn hpos (.cons (.spliceTarget more) hs))
  | spliceTarget tokens => exact .next (.give (r := .success (tokens ++ more) pos) hpos hs)

/-- **One move goes along with one move.** -/
theorem step_alike (hslots : slots'.Alike R slots) {s' s : State} (h : s'.Alike d R s) :
    (step slots' text' s').Alike d R (step slots text s) := by
  cases h with
  | visit hn hpos hs => exact enter_alike hn hpos hs
  | @give r _ _ hr hs =>
    cases hs with
    | nil => exact .done r
    | cons hf hs =>
      cases r with
      | success more pos => exact resume_success_alike hslots more hf hr hs
      | failure pos c => exact resume_failure_alike c hf hr hs

/-- **So do any number of moves.** -/
theorem run_alike (hslots : slots'.Alike R slots) (fuel : Nat) {s' s : State}
    (h : s'.Alike d R s) : run slots' text' fuel s' = (run slots text fuel s).moved d.move := by
  induction fuel generalizing s' s with
  | zero => rfl
  | succ fuel ih =>
    have hstep := step_alike hslots h
    rw [run, run]
    generalize step slots' text' s' = m' at hstep
    generalize step slots text s = m at hstep
    cases hstep with
    | next hs => exact ih hs
    | done r => rfl
    | raised f => rfl

end Machine

/-! ### Any rule -/

/-- Nodes that are alike end alike, after as many moves. -/
theorem evaluate_alike {text' text : List Char} (d : Displacement text' text)
    {R : SlotId → SlotId → Prop} {slots' slots : Slots} (hslots : slots'.Alike R slots)
    {n' n : Node} (hn : n'.Alike R n) {pos : Integral} (hpos : d.Covers pos) (fuel : Nat) :
    evaluate fuel slots' text' n' (d.move pos) = (evaluate fuel slots text n pos).moved d.move :=
  Machine.run_alike hslots fuel (.visit hn hpos .nil)

/-- On one text they end with the same. -/
theorem evaluate_eq_of_alike {R : SlotId → SlotId → Prop} {slots' slots : Slots}
    (hslots : slots'.Alike R slots) {n' n : Node} (hn : n'.Alike R n) (fuel : Nat)
    (text : List Char) (pos : Integral) :
    evaluate fuel slots' text n' pos = evaluate fuel slots text n pos := by
  have hpos : (Displacement.none text).Covers pos := trivial
  have hrun := evaluate_alike (.none text) hslots hn hpos fuel
  rwa [Displacement.none, Outcome.moved_id] at hrun

end LeafGrammar
