import LeafGrammar.Pattern.Matcher
import LeafGrammar.Proofs.Engine.Refinement
import LeafGrammar.Proofs.Engine.Visits
import LeafGrammar.Session.Builder
import Mathlib.Data.List.Forall2

/-!
# Tokens decide nothing

What a rule recognises does not depend on its actions. A node is *silenced* if each of its
actions is replaced by the one that drops all tokens. The run of the silenced node goes
along with the run of the node move by move: the frames on the two stacks are of the same
kinds and hold the same offsets and counts, and only tokens differ, which no frame looks at
(`Machine.step_mirrors`, `Machine.run_mirrors`). The one thing that can part the two is a
fault in the run of the node: an action may fault, and dropping tokens does not.

Two nodes that differ in nothing but their actions have one silenced node, so wherever both
end with a result they end with the same one but for the tokens (`Node.same_recognition`).
-/

namespace LeafGrammar

/-- The node with each of its actions replaced by the one that drops all tokens. -/
def Node.silenced : Node → Node
  | .leaf id p => .leaf id p
  | .empty id => .empty id
  | .seq id l r => .seq id l.silenced r.silenced
  | .choice id l r => .choice id l.silenced r.silenced
  | .rep id child least most => .rep id child.silenced least most
  | .map id child _ => .map id child.silenced discard
  | .splice id base slot => .splice id base.silenced slot

/-- The slots with every node in them silenced. -/
def Slots.silenced (slots : Slots) : Slots := slots.map (·.map Node.silenced)

theorem Slots.target?_silenced (slots : Slots) (slot : SlotId) :
    slots.silenced.target? slot = (slots.target? slot).map Node.silenced := by
  unfold Slots.target? Slots.silenced
  rw [Array.getElem?_map]
  rcases slots[slot]? with _ | _ | target <;> rfl

/-- The result without its tokens: success or failure, the offset and the complaint. -/
def Result.withoutTokens : Result → Result
  | .success _ pos => .success [] pos
  | .failure pos complaint => .failure pos complaint

/-- Whether items can be repeated so often does not hang on the items. -/
theorem Value.repeatItems_ok {α : Type} {items more : List α} {n : Int}
    (h : repeatItems items n = .ok more) (items' : List α) :
    repeatItems items' n = .ok (repeated items' n) := by
  unfold repeatItems at h ⊢
  split at h
  · cases h
  · rename_i hmost
    rw [if_neg hmost]
    split at h
    · cases h
    · rename_i hleast
      rw [if_neg hleast]

namespace Machine

/-! ### The silenced run beside the run -/

/-- `f'.Mirrors f`: the frame `f'` waits in the silenced run where `f` waits in the run. -/
inductive Frame.Mirrors : Frame → Frame → Prop where
  | seqLeft (right : Node) : Mirrors (.seqLeft right.silenced) (.seqLeft right)
  | seqRight (tokens' tokens : List Value) : Mirrors (.seqRight tokens') (.seqRight tokens)
  | choiceLeft (right : Node) (pos : Integral) :
      Mirrors (.choiceLeft right.silenced pos) (.choiceLeft right pos)
  | choiceRight : Mirrors .choiceRight .choiceRight
  | rep (child : Node) (least : Integral) (most : Option Integral) (tokens' tokens : List Value)
      (cur : Integral) (count : Nat) :
      Mirrors (.rep child.silenced least most tokens' cur count)
        (.rep child least most tokens cur count)
  | map (action : Action) : Mirrors (.map discard) (.map action)
  | spliceBase (slot : SlotId) : Mirrors (.spliceBase slot) (.spliceBase slot)
  | spliceTarget (tokens' tokens : List Value) :
      Mirrors (.spliceTarget tokens') (.spliceTarget tokens)

/-- The states that the two runs are in after the same number of moves. -/
inductive State.Mirrors : State → State → Prop where
  | visit (node : Node) (pos : Integral) {stack' stack : List Frame} :
      List.Forall₂ Frame.Mirrors stack' stack →
        Mirrors (.visit node.silenced pos stack') (.visit node pos stack)
  | give {r' r : Result} {stack' stack : List Frame} :
      r'.withoutTokens = r.withoutTokens → List.Forall₂ Frame.Mirrors stack' stack →
        Mirrors (.give r' stack') (.give r stack)

/-- The moves from such states. Of a run that raises a fault nothing is said. -/
inductive Move.Mirrors : Move → Move → Prop where
  | next {s' s : State} : s'.Mirrors s → Mirrors (.next s') (.next s)
  | done {r' r : Result} : r'.withoutTokens = r.withoutTokens → Mirrors (.done r') (.done r)
  | raised (m' : Move) (f : Fault) : Mirrors m' (.raised f)

/-- How the two runs stand after the same number of moves. -/
inductive Mirrored : Outcome Result → Outcome Result → Prop where
  | value {r' r : Result} : r'.withoutTokens = r.withoutTokens → Mirrored (.value r') (.value r)
  | outOfFuel : Mirrored .outOfFuel .outOfFuel
  | raised (o' : Outcome Result) (f : Fault) : Mirrored o' (.raised f)

variable {stack' stack : List Frame}

theorem finishRep_mirrors (least : Integral) (tokens' tokens : List Value) (cur : Integral)
    (count : Nat) (hs : List.Forall₂ Frame.Mirrors stack' stack) :
    (finishRep least tokens' cur count stack').Mirrors
      (finishRep least tokens cur count stack) := by
  unfold finishRep
  split
  · split
    · exact .next (.give rfl hs)
    · exact .raised ..
  · exact .next (.give rfl hs)

theorem continueRep_mirrors (child : Node) (least : Integral) (most : Option Integral)
    (tokens' tokens : List Value) (cur : Integral) (count : Nat)
    (hs : List.Forall₂ Frame.Mirrors stack' stack) :
    (continueRep child.silenced least most tokens' cur count stack').Mirrors
      (continueRep child least most tokens cur count stack) := by
  unfold continueRep
  split
  · exact .next (.visit child cur (.cons (.rep ..) hs))
  · exact finishRep_mirrors _ _ _ _ _ hs

theorem settleRep_mirrors (least : Integral) (most : Option Integral)
    (all' all round' round : List Value) (cur : Integral) (count : Nat)
    (hs : List.Forall₂ Frame.Mirrors stack' stack) :
    (settleRep least most all' round' cur count stack').Mirrors
      (settleRep least most all round cur count stack) := by
  unfold settleRep
  cases most with
  | none => exact .next (.give rfl hs)
  | some m =>
    simp only
    cases hround : Value.repeatItems round (m.toInt - count) with
    | error f => exact .raised ..
    | ok more =>
      rw [Value.repeatItems_ok hround round']
      exact finishRep_mirrors _ _ _ _ _ hs

theorem enter_mirrors (text : List Char) (node : Node) (pos : Integral)
    (hs : List.Forall₂ Frame.Mirrors stack' stack) :
    (enter text node.silenced pos stack').Mirrors (enter text node pos stack) := by
  cases node with
  | leaf id p => exact .next (.give rfl hs)
  | empty id => exact .next (.give rfl hs)
  | seq id l r => exact .next (.visit l pos (.cons (.seqLeft r) hs))
  | choice id l r => exact .next (.visit l pos (.cons (.choiceLeft r pos) hs))
  | rep id child least most => exact continueRep_mirrors child least most [] [] pos 0 hs
  | map id child action => exact .next (.visit child pos (.cons (.map action) hs))
  | splice id base slot => exact .next (.visit base pos (.cons (.spliceBase slot) hs))

/-- A failure goes through both stacks alike. -/
theorem resume_failure_mirrors (slots : Slots) {frame' frame : Frame} (hf : frame'.Mirrors frame)
    (pos : Integral) (c : Option Complaint) (hs : List.Forall₂ Frame.Mirrors stack' stack) :
    (resume slots.silenced frame' (.failure pos c) stack').Mirrors
      (resume slots frame (.failure pos c) stack) := by
  cases hf with
  | choiceLeft right start => exact .next (.visit right start (.cons .choiceRight hs))
  | rep child least most tokens' tokens cur count => exact finishRep_mirrors _ _ _ _ _ hs
  | _ => exact .next (.give rfl hs)

/-- Successes with different tokens are taken alike, unless an action faults. -/
theorem resume_success_mirrors (slots : Slots) {frame' frame : Frame} (hf : frame'.Mirrors frame)
    (more' more : List Value) (pos : Integral) (hs : List.Forall₂ Frame.Mirrors stack' stack) :
    (resume slots.silenced frame' (.success more' pos) stack').Mirrors
      (resume slots frame (.success more pos) stack) := by
  cases hf with
  | seqLeft right => exact .next (.visit right pos (.cons (.seqRight ..) hs))
  | seqRight tokens' tokens => exact .next (.give rfl hs)
  | choiceLeft right start => exact .next (.give rfl hs)
  | choiceRight => exact .next (.give rfl hs)
  | rep child least most tokens' tokens cur count =>
    simp only [resume]
    split
    · exact settleRep_mirrors _ _ _ _ _ _ _ _ hs
    · exact continueRep_mirrors _ _ _ _ _ _ _ hs
  | map action =>
    simp only [resume]
    cases action.newTokens more with
    | ok tokens => exact .next (.give rfl hs)
    | error f => exact .raised ..
  | spliceBase slot =>
    simp only [resume, Slots.target?_silenced]
    cases slots.target? slot with
    | none => exact .raised ..
    | some target => exact .next (.visit target pos (.cons (.spliceTarget ..) hs))
  | spliceTarget tokens' tokens => exact .next (.give rfl hs)

/-- **One move of the silenced run goes along with one move of the run.** -/
theorem step_mirrors (slots : Slots) (text : List Char) {s' s : State} (h : s'.Mirrors s) :
    (step slots.silenced text s').Mirrors (step slots text s) := by
  cases h with
  | visit node pos hs => exact enter_mirrors text node pos hs
  | @give r' r _ _ hr hs =>
    cases hs with
    | nil => exact .done hr
    | cons hf hs =>
      match r', r, hr with
      | .success more' pos, .success more _, rfl => exact resume_success_mirrors slots hf _ _ pos hs
      | .failure pos c, .failure _ _, rfl => exact resume_failure_mirrors slots hf pos c hs

/-- **So do any number of moves.** -/
theorem run_mirrors (slots : Slots) (text : List Char) (fuel : Nat) {s' s : State}
    (h : s'.Mirrors s) :
    Mirrored (run slots.silenced text fuel s') (run slots text fuel s) := by
  induction fuel generalizing s' s with
  | zero => exact .outOfFuel
  | succ fuel ih =>
    have hstep := step_mirrors slots text h
    rw [run, run]
    generalize step slots.silenced text s' = m' at hstep
    generalize step slots text s = m at hstep
    cases hstep with
    | next hs => exact ih hs
    | done hr => exact .value hr
    | raised m' f => exact .raised ..

end Machine

/-! ### What is recognised -/

/-- The run of a node and that of the silenced node, side by side. -/
theorem evaluate_mirrored (fuel : Nat) (slots : Slots) (text : List Char) (n : Node)
    (pos : Integral) :
    Machine.Mirrored (evaluate fuel slots.silenced text n.silenced pos)
      (evaluate fuel slots text n pos) :=
  Machine.run_mirrors slots text fuel (.visit n pos .nil)

/-- Where a node ends with a result the silenced node does too, after as many moves. -/
theorem evaluate_silenced {fuel : Nat} {slots : Slots} {text : List Char} {n : Node}
    {pos : Integral} {r : Result} (h : evaluate fuel slots text n pos = .value r) :
    ∃ r₀, evaluate fuel slots.silenced text n.silenced pos = .value r₀ ∧
      r₀.withoutTokens = r.withoutTokens := by
  have hm := evaluate_mirrored fuel slots text n pos
  rw [h] at hm
  generalize evaluate fuel slots.silenced text n.silenced pos = o at hm
  cases hm with
  | value hr => exact ⟨_, rfl, hr⟩

/-- A node has one result at most, however many moves it is given. -/
theorem evaluate_value_unique {fuel fuel' : Nat} {slots : Slots} {text : List Char} {n : Node}
    {pos : Integral} {r r' : Result} (h : evaluate fuel slots text n pos = .value r)
    (h' : evaluate fuel' slots text n pos = .value r') : r = r' := by
  have hd := Machine.exists_evaluate_eq_iff (e := .ok r) |>.mp ⟨fuel, h⟩
  have hd' := Machine.exists_evaluate_eq_iff (e := .ok r') |>.mp ⟨fuel', h'⟩
  exact Except.ok.inj (Machine.derives_unique hd hd')

/-- **What is recognised does not depend on the actions.** Two nodes, in two sets of slots, that
differ in nothing but their actions end with the same result but for its tokens if both end with
a result, in whatever journals. And with all actions replaced by the one that drops all tokens a
node ends with the result that it ends with otherwise, but for its tokens, unless one of the
actions, or another fault, keeps it from ending with any. -/
theorem Node.same_recognition {slots slots' : Slots} {n n' : Node}
    (hn : n.silenced = n'.silenced) (hslots : slots.silenced = slots'.silenced)
    (text : List Char) (pos : Integral) :
    (∀ (fuel fuel' : Nat) (j j' : Journal) (r r' : Result),
        (evaluateIn fuel slots text n pos j).1 = .value r →
          (evaluateIn fuel' slots' text n' pos j').1 = .value r' →
            r.withoutTokens = r'.withoutTokens) ∧
      (∀ (fuel : Nat) (j : Journal) (r : Result),
        (evaluateIn fuel slots text n pos j).1 = .value r →
          ∃ r₀, evaluate fuel slots.silenced text n.silenced pos = .value r₀ ∧
            r₀.withoutTokens = r.withoutTokens) ∧
      ∀ (fuel : Nat) (r₀ : Result),
        evaluate fuel slots.silenced text n.silenced pos = .value r₀ →
          (∃ r, evaluate fuel slots text n pos = .value r ∧ r₀.withoutTokens = r.withoutTokens) ∨
            ∃ f, evaluate fuel slots text n pos = .raised f := by
  refine ⟨fun fuel fuel' j j' r r' h h' => ?_, fun fuel j r h => ?_, fun fuel r₀ h => ?_⟩
  · obtain ⟨r₀, h₀, hr⟩ := evaluate_silenced (evaluateIn_value h)
    obtain ⟨r₀', h₀', hr'⟩ := evaluate_silenced (evaluateIn_value h')
    rw [← hn, ← hslots] at h₀'
    rw [← hr, ← hr', evaluate_value_unique h₀ h₀']
  · exact evaluate_silenced (evaluateIn_value h)
  · have hm := evaluate_mirrored fuel slots text n pos
    rw [h] at hm
    generalize evaluate fuel slots text n pos = o at hm
    cases hm with
    | value hr => exact .inl ⟨_, rfl, hr⟩
    | raised _ f => exact .inr ⟨f, rfl⟩

/-- The action that puts a number before the tokens. -/
def numbering (k : Int) : Action where
  name := "number"
  apply tokens := .ok (.list (.int k :: tokens))

/-- Some letters `a`, each given to the action, and behind them two or three rounds of nothing
that are given to it as well. -/
def countedLetters (action : Action) : Node :=
  .choice 6 (.splice 2 (.map 1 (.leaf 0 (.ofRegex "a" (.one (.ofChar 'a') .exact))) action) 0)
    (.rep 5 (.map 4 (.empty 3) action) (.num 2) (some (.num 3)))

/-- Numbered or dropped, the letters are recognised alike, with seven tokens or with none. -/
theorem same_recognition_countedLetters :
    (countedLetters (numbering 7)).silenced = (countedLetters discard).silenced ∧
      Slots.silenced #[some (countedLetters (numbering 7))] =
        Slots.silenced #[some (countedLetters discard)] ∧
      ∃ r r', evaluate 40 #[some (countedLetters (numbering 7))] ['a', 'a', 'b']
            (countedLetters (numbering 7)) (.num 0) = .value r ∧
        evaluate 40 #[some (countedLetters discard)] ['a', 'a', 'b']
            (countedLetters discard) (.num 0) = .value r' ∧
        r ≠ r' ∧ r.withoutTokens = r'.withoutTokens := by
  have hrun : evaluate 40 #[some (countedLetters (numbering 7))] ['a', 'a', 'b']
      (countedLetters (numbering 7)) (.num 0) =
        .value (.success [.int 7, .text "a", .int 7, .text "a", .int 7, .int 7, .int 7]
          (.num 2)) := rfl
  have hrun' : evaluate 40 #[some (countedLetters discard)] ['a', 'a', 'b']
      (countedLetters discard) (.num 0) = .value (.success [] (.num 2)) := rfl
  have hnode : (countedLetters (numbering 7)).silenced = (countedLetters discard).silenced := rfl
  have hslots : Slots.silenced #[some (countedLetters (numbering 7))] =
      Slots.silenced #[some (countedLetters discard)] := by
    simp [Slots.silenced, hnode]
  let quiet := Journal.new false "WARNING"
  exact ⟨hnode, hslots, _, _, hrun, hrun', nofun,
    (Node.same_recognition hnode hslots ['a', 'a', 'b'] (.num 0)).1 40 40 quiet quiet _ _ hrun
      hrun'⟩

end LeafGrammar
