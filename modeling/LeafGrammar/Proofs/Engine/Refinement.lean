import LeafGrammar.Engine.Trace
import LeafGrammar.Proofs.Engine.Derivation

/-!
# The machine runs what the rules mean

The machine keeps the callers of the current node as frames on a stack. A stack of
frames is a derivation with a hole: each frame knows which rule of `Derives` it is in
the middle of, and what the rule still has to derive.

Both directions are said with `Halts n m e`: after the move `m` the machine halts
with `e`, and it takes `n` moves at most.

* `Derives.halts`: whatever the stack below does with an ending of a task, the
  machine does when it starts on the task. This is an induction over the derivation.
* `derives_of_halts`: a machine that starts on a node and halts at all comes back to
  the stack below with an ending of the node, and has moves left over. This is an
  induction over the number of moves; the repetition needs the moves that its last
  round has used up.

So the machine halts exactly with what is derived, and runs for ever exactly where
nothing is derived (`evaluateIn_halts_iff`).
-/

namespace LeafGrammar

/-- The outcome of a computation that ends so. -/
def Outcome.ofExcept {α : Type} : Except Fault α → Outcome α
  | .ok r => .value r
  | .error f => .raised f

/-- Hand an ending to the stack; a fault is not handed to anyone. -/
def Finish.give (stack : List Machine.Frame) : Finish → Machine.Move
  | .ok r => .next (.give r stack)
  | .error f => .raised f

/-- The move that starts a task on top of a stack. -/
def Task.start (stack : List Machine.Frame) : Task → Machine.Move
  | .node n pos => .next (.visit n pos stack)
  | .rounds child least most tokens cur count =>
    Machine.continueRep child least most tokens cur count stack

namespace Machine

variable {slots : Slots} {text : List Char}

/-- After the move `m` the machine halts with `e`, within `n` moves. -/
inductive Halts (slots : Slots) (text : List Char) : Nat → Move → Finish → Prop where
  | done {n : Nat} {r : Result} : Halts slots text n (.done r) (.ok r)
  | raised {n : Nat} {f : Fault} : Halts slots text n (.raised f) (.error f)
  | next {n : Nat} {s : State} {e : Finish} :
      Halts slots text n (step slots text s) e → Halts slots text (n + 1) (.next s) e

/-- More moves do no harm. -/
theorem Halts.mono {n k : Nat} {m : Move} {e : Finish} (h : Halts slots text n m e) (hk : n ≤ k) :
    Halts slots text k m e := by
  induction h generalizing k with
  | done => exact .done
  | raised => exact .raised
  | next _ ih =>
    obtain ⟨k, rfl⟩ : ∃ k', k = k' + 1 := ⟨k - 1, by omega⟩
    exact .next (ih (by omega))

/-- A machine that is to make a move and halts has at least that move. -/
theorem Halts.inv_next {n : Nat} {s : State} {e : Finish} (h : Halts slots text n (.next s) e) :
    ∃ k, n = k + 1 ∧ Halts slots text k (step slots text s) e := by
  cases h with
  | next h => exact ⟨_, rfl, h⟩

/-- `run` gives the ending of a machine that halts. -/
theorem run_eq_ofExcept_iff {fuel : Nat} {s : State} {e : Finish} :
    run slots text fuel s = .ofExcept e ↔ Halts slots text fuel (.next s) e := by
  induction fuel generalizing s with
  | zero =>
    constructor
    · intro h
      cases e <;> cases h
    · intro h
      obtain ⟨k, hk, -⟩ := h.inv_next
      omega
  | succ fuel ih =>
    rw [run]
    constructor
    · intro h
      refine .next ?_
      split at h
      · rename_i hs
        rw [hs]
        exact ih.mp h
      · rename_i hs
        rw [hs]
        cases e <;> cases h
        exact .done
      · rename_i hs
        rw [hs]
        cases e <;> cases h
        exact .raised
    · intro h
      obtain ⟨k, hk, h⟩ := h.inv_next
      obtain rfl : fuel = k := by omega
      generalize step slots text s = m at h
      cases h with
      | done => rfl
      | raised => rfl
      | next h => exact ih.mpr (.next h)

theorem Halts.inv_give {n : Nat} {r : Result} {frame : Frame} {stack : List Frame} {e : Finish}
    (h : Halts slots text n (.next (.give r (frame :: stack))) e) :
    ∃ k, n = k + 1 ∧ Halts slots text k (resume slots frame r stack) e := h.inv_next

theorem finishRep_eq (least : Integral) (tokens : List Value) (cur : Integral) (count : Nat)
    (stack : List Frame) :
    finishRep least tokens cur count stack = (Finish.ofRounds least tokens cur count).give stack := by
  unfold finishRep Finish.ofRounds
  split
  · split <;> rfl
  · rfl

theorem settleRep_some_eq (least m : Integral) (all round : List Value) (cur : Integral)
    (count : Nat) (stack : List Frame) :
    settleRep least (some m) all round cur count stack =
      (Finish.ofSettled least m all round cur count).give stack := by
  unfold settleRep Finish.ofSettled
  simp only
  cases Value.repeatItems round (m.toInt - count) with
  | ok more => exact finishRep_eq ..
  | error f => rfl

theorem newTokens_eq (action : Action) (tokens : List Value) (q : Integral) (stack : List Frame) :
    resume slots (.map action) (.success tokens q) stack =
      Finish.give stack ((action.newTokens tokens).map (.success · q)) := by
  simp only [resume]
  cases action.newTokens tokens <;> rfl

/-- The frames that wait for the first part of something, and let a failure through. -/
def Frame.WaitsForFirst : Frame → Prop
  | .seqLeft _ | .map _ | .spliceBase _ => True
  | _ => False

/-- The frames that have the tokens of the first part of something. -/
def Frame.holds (tokens : List Value) : Frame → Prop
  | .seqRight ts | .spliceTarget ts => ts = tokens
  | _ => False

theorem resume_failure_of_waitsForFirst (slots : Slots) {frame : Frame} (hf : frame.WaitsForFirst)
    (q : Integral) (c : Option Complaint) (stack : List Frame) :
    resume slots frame (.failure q c) stack = .next (.give (.failure q c) stack) := by
  cases frame <;> first | rfl | exact hf.elim

theorem resume_of_holds (slots : Slots) {frame : Frame} {tokens : List Value} (hf : frame.holds tokens)
    (r : Result) (stack : List Frame) :
    resume slots frame r stack = Finish.give stack (Finish.after tokens (.ok r)) := by
  cases frame <;> first | exact hf.elim | (cases hf; cases r <;> rfl)

/-- A frame that waits for a first part lets a stop through. -/
theorem Halts.stop {n : Nat} (frame : Frame) {stack : List Frame} {e e' : Finish}
    (hf : frame.WaitsForFirst) (he : e.IsStop) :
    (Halts slots text n (e.give stack) e' → Halts slots text (n + 1) (e.give (frame :: stack)) e') ∧
      (Halts slots text n (e.give (frame :: stack)) e' → Halts slots text n (e.give stack) e') := by
  match e, he with
  | .error f, _ => exact ⟨fun h => h.mono (by omega), id⟩
  | .ok (.failure q c), _ =>
    have hr := resume_failure_of_waitsForFirst slots hf q c stack
    constructor
    · intro h
      refine .next ?_
      rw [step, hr]
      exact h
    · intro h
      obtain ⟨k, rfl, h'⟩ := h.inv_give
      rw [hr] at h'
      exact h'.mono (by omega)

/-- A frame that holds tokens puts them in front. -/
theorem Halts.after {n : Nat} (frame : Frame) {stack : List Frame} {tokens : List Value}
    {e e' : Finish} (hf : frame.holds tokens) :
    (Halts slots text n ((e.after tokens).give stack) e' →
        Halts slots text (n + 1) (e.give (frame :: stack)) e') ∧
      (Halts slots text n (e.give (frame :: stack)) e' →
        Halts slots text n ((e.after tokens).give stack) e') := by
  cases e with
  | error f => exact ⟨fun h => h.mono (by omega), id⟩
  | ok r =>
    have hr := resume_of_holds slots hf r stack
    constructor
    · intro h
      refine .next ?_
      rw [step, hr]
      exact h
    · intro h
      obtain ⟨k, rfl, h'⟩ := h.inv_give
      rw [hr] at h'
      exact h'.mono (by omega)

/-! ### From derivations to the machine -/

/-- **The machine does what is derived**: if the stack, handed the ending of a task,
makes the machine halt, then the machine halts in the same way when it starts on the
task. -/
theorem halts_of_derives {t : Task} {e : Finish} (h : Derives slots text t e) :
    ∀ (stack : List Frame) {n : Nat} {e' : Finish}, Halts slots text n (e.give stack) e' →
      ∃ k, Halts slots text k (t.start stack) e' := by
  induction h with
  | leaf =>
    intro stack n e' hn
    exact ⟨n + 1, .next hn⟩
  | empty =>
    intro stack n e' hn
    exact ⟨n + 1, .next hn⟩
  | @seqStop id l r pos e _ hs ih =>
    intro stack n e' hn
    obtain ⟨k, hk⟩ := ih _ ((Halts.stop (.seqLeft r) trivial hs).1 hn)
    exact ⟨k + 1, .next hk⟩
  | @seq id l r pos q tokens e _ _ ihl ihr =>
    intro stack n e' hn
    obtain ⟨k, hk⟩ := ihr _ ((Halts.after (.seqRight tokens) rfl).1 hn)
    obtain ⟨k', hk'⟩ := ihl (.seqLeft r :: stack) (.next hk)
    exact ⟨k' + 1, .next hk'⟩
  | @choiceLeft id l r pos e _ he ih =>
    intro stack n e' hn
    obtain ⟨k, hk⟩ : ∃ k, Halts slots text k (e.give (.choiceLeft r pos :: stack)) e' := by
      match e, he with
      | .error f, _ => exact ⟨n, hn⟩
      | .ok (.success ts q), _ => exact ⟨n + 1, .next hn⟩
      | .ok (.failure q c), he => exact (he trivial).elim
    obtain ⟨k', hk'⟩ := ih _ hk
    exact ⟨k' + 1, .next hk'⟩
  | @choiceRight id l r pos q c e _ _ ihl ihr =>
    intro stack n e' hn
    have hn' : ∃ k, Halts slots text k (e.give (.choiceRight :: stack)) e' := by
      cases e with
      | error f => exact ⟨n, hn⟩
      | ok r => exact ⟨n + 1, .next (by cases r <;> exact hn)⟩
    obtain ⟨k, hk⟩ := hn'
    obtain ⟨k, hk⟩ := ihr _ hk
    obtain ⟨k', hk'⟩ := ihl (.choiceLeft r pos :: stack) (.next hk)
    exact ⟨k' + 1, .next hk'⟩
  | rep _ ih =>
    intro stack n e' hn
    obtain ⟨k, hk⟩ := ih _ hn
    exact ⟨k + 1, .next hk⟩
  | @roundsFull child least most tokens cur count hgo =>
    intro stack n e' hn
    refine ⟨n, ?_⟩
    rw [Task.start, continueRep, hgo, if_neg Bool.false_ne_true, finishRep_eq]
    exact hn
  | @roundsOver child least most tokens cur q count c hgo _ ih =>
    intro stack n e' hn
    rw [Task.start, continueRep, hgo, if_pos rfl]
    refine ih (.rep child least most tokens cur count :: stack) (n := n + 1) (.next ?_)
    rw [step, resume, finishRep_eq]
    exact hn
  | @roundsFault child least most tokens cur count f hgo _ ih =>
    intro stack n e' hn
    rw [Task.start, continueRep, hgo, if_pos rfl]
    exact ih (.rep child least most tokens cur count :: stack) hn
  | @roundsNext child least most tokens round cur q count e hgo _ hq _ ih ihr =>
    intro stack n e' hn
    obtain ⟨k, hk⟩ := ihr _ hn
    rw [Task.start, continueRep, hgo, if_pos rfl]
    refine ih (.rep child least most tokens cur count :: stack) (n := k + 1) (.next ?_)
    simp only [step, resume, hq, if_false]
    exact hk
  | @roundsFree child least tokens round cur q count _ hq ih =>
    intro stack n e' hn
    refine ih (.rep child least none tokens cur count :: stack) (n := n + 1) (.next ?_)
    simp only [step, resume, hq, if_true]
    exact hn
  | @roundsSettled child least m tokens round cur q count hgo _ hq ih =>
    intro stack n e' hn
    rw [Task.start, continueRep, hgo, if_pos rfl]
    refine ih (.rep child least (some m) tokens cur count :: stack) (n := n + 1) (.next ?_)
    simp only [step, resume, hq, if_true]
    rw [settleRep_some_eq]
    exact hn
  | @mapStop id child action pos e _ hs ih =>
    intro stack n e' hn
    obtain ⟨k, hk⟩ := ih _ ((Halts.stop (.map action) trivial hs).1 hn)
    exact ⟨k + 1, .next hk⟩
  | @map id child action pos q tokens _ ih =>
    intro stack n e' hn
    have hn' : Halts slots text n (resume slots (.map action) (.success tokens q) stack) e' := by
      rw [newTokens_eq]
      exact hn
    obtain ⟨k, hk⟩ := ih (.map action :: stack) (.next hn')
    exact ⟨k + 1, .next hk⟩
  | @spliceStop id base slot pos e _ hs ih =>
    intro stack n e' hn
    obtain ⟨k, hk⟩ := ih _ ((Halts.stop (.spliceBase slot) trivial hs).1 hn)
    exact ⟨k + 1, .next hk⟩
  | @spliceEmpty id base slot pos q tokens _ hslot ih =>
    intro stack n e' hn
    have hn' : Halts slots text n (resume slots (.spliceBase slot) (.success tokens q) stack) e' := by
      simp only [resume, hslot]
      exact hn
    obtain ⟨k, hk⟩ := ih (.spliceBase slot :: stack) (.next hn')
    exact ⟨k + 1, .next hk⟩
  | @splice id base target slot pos q tokens e _ hslot _ ihb iht =>
    intro stack n e' hn
    obtain ⟨k, hk⟩ := iht _ ((Halts.after (.spliceTarget tokens) rfl).1 hn)
    have hk' : Halts slots text k (resume slots (.spliceBase slot) (.success tokens q) stack) e' := by
      simp only [resume, hslot]
      exact hk
    obtain ⟨k', hk'⟩ := ihb (.spliceBase slot :: stack) (.next hk')
    exact ⟨k' + 1, .next hk'⟩

/-! ### From the machine to derivations -/

/-- A machine that starts on any node and halts within `n` moves hands an ending of the
node to the stack below, and has fewer moves left by then. -/
def Returns (slots : Slots) (text : List Char) (n : Nat) : Prop :=
  ∀ (node : Node) (pos : Integral) (stack : List Frame) (e' : Finish),
    Halts slots text n (.next (.visit node pos stack)) e' →
      ∃ e k, k < n ∧ Derives slots text (.node node pos) e ∧ Halts slots text k (e.give stack) e'

/-- What holds of the child holds of the rounds: each of them uses up a move. -/
theorem rounds_return {child : Node} {least : Integral} {most : Option Integral} (n : Nat)
    (hret : ∀ k ≤ n, Returns slots text k) :
    ∀ (tokens : List Value) (cur : Integral) (count : Nat) (stack : List Frame) (e' : Finish),
      Halts slots text n (continueRep child least most tokens cur count stack) e' →
        ∃ e, Derives slots text (.rounds child least most tokens cur count) e ∧
          Halts slots text n (e.give stack) e' := by
  induction n using Nat.strongRecOn with
  | ind n ih =>
    intro tokens cur count stack e' h
    unfold continueRep at h
    split at h
    · rename_i hgo
      obtain ⟨e₁, k, hk, hd, h₁⟩ := hret n (Nat.le_refl n) _ _ _ _ h
      match e₁, hd, h₁ with
      | .error f, hd, h₁ => exact ⟨_, .roundsFault hgo hd, h₁.mono (by omega)⟩
      | .ok (.failure q c), hd, h₁ =>
        obtain ⟨k', rfl, h₂⟩ := h₁.inv_give
        rw [resume, finishRep_eq] at h₂
        exact ⟨_, .roundsOver hgo hd, h₂.mono (by omega)⟩
      | .ok (.success round q), hd, h₁ =>
        obtain ⟨k', rfl, h₂⟩ := h₁.inv_give
        simp only [resume] at h₂
        split at h₂
        · rename_i hq
          cases most with
          | none => exact ⟨_, .roundsFree hd hq, h₂.mono (by omega)⟩
          | some m =>
            rw [settleRep_some_eq] at h₂
            exact ⟨_, .roundsSettled hgo hd hq, h₂.mono (by omega)⟩
        · rename_i hq
          obtain ⟨e, hd', h₃⟩ := ih k' (by omega) (fun j hj => hret j (by omega)) _ _ _ _ _ h₂
          exact ⟨e, .roundsNext hgo hd hq hd', h₃.mono (by omega)⟩
    · rename_i hgo
      rw [finishRep_eq] at h
      exact ⟨_, .roundsFull (by simpa using hgo), h⟩

/-- **The machine does only what is derived.** -/
theorem derives_of_halts (n : Nat) : Returns slots text n := by
  induction n using Nat.strongRecOn with
  | ind n ih =>
    intro node pos stack e' h₀
    obtain ⟨n, rfl, h⟩ := h₀.inv_next
    cases node with
    | leaf id p => exact ⟨_, n, by omega, .leaf, h⟩
    | empty id => exact ⟨_, n, by omega, .empty, h⟩
    | seq id l r =>
      obtain ⟨e₁, k, hk, hd, h₁⟩ := ih n (by omega) l pos (.seqLeft r :: stack) e' h
      match e₁, hd, h₁ with
      | .ok (.success tokens q), hd, h₁ =>
        obtain ⟨k, rfl, h₂⟩ := h₁.inv_give
        obtain ⟨e₂, k', hk', hd', h₃⟩ := ih k (by omega) r q (.seqRight tokens :: stack) e' h₂
        exact ⟨_, k', by omega, .seq hd hd', (Halts.after (.seqRight tokens) rfl).2 h₃⟩
      | .ok (.failure q c), hd, h₁ =>
        have h₂ := (Halts.stop (.seqLeft r) trivial (Finish.isStop_failure q c)).2 h₁
        exact ⟨_, k, by omega, .seqStop hd trivial, h₂⟩
      | .error f, hd, h₁ => exact ⟨_, k, by omega, .seqStop hd trivial, h₁⟩
    | choice id l r =>
      obtain ⟨e₁, k, hk, hd, h₁⟩ := ih n (by omega) l pos (.choiceLeft r pos :: stack) e' h
      match e₁, hd, h₁ with
      | .ok (.success tokens q), hd, h₁ =>
        obtain ⟨k, rfl, h₂⟩ := h₁.inv_give
        exact ⟨_, k, by omega, .choiceLeft hd (by simp), h₂⟩
      | .ok (.failure q c), hd, h₁ =>
        obtain ⟨k, rfl, h₂⟩ := h₁.inv_give
        obtain ⟨e₂, k', hk', hd', h₃⟩ := ih k (by omega) r pos (.choiceRight :: stack) e' h₂
        refine ⟨_, k', by omega, .choiceRight hd hd', ?_⟩
        cases e₂ with
        | error f => exact h₃
        | ok r =>
          obtain ⟨k', rfl, h₄⟩ := h₃.inv_give
          cases r <;> exact h₄.mono (by omega)
      | .error f, hd, h₁ => exact ⟨_, k, by omega, .choiceLeft hd (by simp), h₁⟩
    | rep id child least most =>
      obtain ⟨e, hd, h₁⟩ := rounds_return n (fun k hk => ih k (by omega)) _ _ _ _ _ h
      exact ⟨e, n, by omega, .rep hd, h₁⟩
    | map id child action =>
      obtain ⟨e₁, k, hk, hd, h₁⟩ := ih n (by omega) child pos (.map action :: stack) e' h
      match e₁, hd, h₁ with
      | .ok (.success tokens q), hd, h₁ =>
        obtain ⟨k, rfl, h₂⟩ := h₁.inv_give
        rw [newTokens_eq] at h₂
        exact ⟨_, k, by omega, .map hd, h₂⟩
      | .ok (.failure q c), hd, h₁ =>
        have h₂ := (Halts.stop (.map action) trivial (Finish.isStop_failure q c)).2 h₁
        exact ⟨_, k, by omega, .mapStop hd trivial, h₂⟩
      | .error f, hd, h₁ => exact ⟨_, k, by omega, .mapStop hd trivial, h₁⟩
    | splice id base slot =>
      obtain ⟨e₁, k, hk, hd, h₁⟩ := ih n (by omega) base pos (.spliceBase slot :: stack) e' h
      match e₁, hd, h₁ with
      | .ok (.success tokens q), hd, h₁ =>
        obtain ⟨k, rfl, h₂⟩ := h₁.inv_give
        simp only [resume] at h₂
        split at h₂
        · rename_i hslot
          exact ⟨_, k, by omega, .spliceEmpty hd hslot, h₂⟩
        · rename_i target hslot
          obtain ⟨e₂, k', hk', hd', h₃⟩ :=
            ih k (by omega) target q (.spliceTarget tokens :: stack) e' h₂
          exact ⟨_, k', by omega, .splice hd hslot hd', (Halts.after (.spliceTarget tokens) rfl).2 h₃⟩
      | .ok (.failure q c), hd, h₁ =>
        have h₂ := (Halts.stop (.spliceBase slot) trivial (Finish.isStop_failure q c)).2 h₁
        exact ⟨_, k, by omega, .spliceStop hd trivial, h₂⟩
      | .error f, hd, h₁ => exact ⟨_, k, by omega, .spliceStop hd trivial, h₁⟩

/-! ### The two agree -/

/-- Within some number of moves `evaluate` ends with `e` exactly if `e` is derived. -/
theorem exists_evaluate_eq_iff {node : Node} {pos : Integral} {e : Finish} :
    (∃ fuel, evaluate fuel slots text node pos = .ofExcept e) ↔
      Derives slots text (.node node pos) e := by
  constructor
  · rintro ⟨fuel, h⟩
    obtain ⟨e₁, k, -, hd, h₁⟩ := derives_of_halts fuel _ _ _ _ (run_eq_ofExcept_iff.mp h)
    -- the stack is empty, so what is handed to it is the ending of the whole run
    cases e₁ with
    | error f =>
      cases h₁
      exact hd
    | ok r =>
      obtain ⟨k, rfl, h₂⟩ := h₁.inv_next
      cases h₂
      exact hd
  · intro hd
    have h₀ : Halts slots text 1 (e.give []) e := by
      cases e with
      | error f => exact .raised
      | ok r => exact .next .done
    obtain ⟨k, hk⟩ := halts_of_derives hd [] h₀
    exact ⟨k, run_eq_ofExcept_iff.mpr hk⟩

/-- A node has one ending at most. -/
theorem derives_unique {node : Node} {pos : Integral} {e₁ e₂ : Finish}
    (h₁ : Derives slots text (.node node pos) e₁) (h₂ : Derives slots text (.node node pos) e₂) :
    e₁ = e₂ := by
  obtain ⟨n₁, h₁⟩ := exists_evaluate_eq_iff.mpr h₁
  obtain ⟨n₂, h₂⟩ := exists_evaluate_eq_iff.mpr h₂
  have h₁ := (run_eq_ofExcept_iff.mp h₁).mono (Nat.le_max_left n₁ n₂)
  have h₂ := (run_eq_ofExcept_iff.mp h₂).mono (Nat.le_max_right n₁ n₂)
  have h := (run_eq_ofExcept_iff.mpr h₁).symm.trans (run_eq_ofExcept_iff.mpr h₂)
  cases e₁ <;> cases e₂ <;> cases h <;> rfl

end Machine

end LeafGrammar
