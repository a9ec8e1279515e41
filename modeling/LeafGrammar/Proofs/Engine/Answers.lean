import LeafGrammar.Proofs.Engine.Derivation

/-!
# What a rule is sure to answer

`Answers slots text n pos P` says that the node `n` ends at the offset `pos`, and with
an ending that has the property `P`. It is total correctness: a node that runs for ever
answers nothing. There is one law for each way to make a rule, and together they carry a
property from the leaves of a grammar to its root. The law for a repetition asks for an
invariant that every round keeps while it moves the offset on; since the offset cannot
leave the text, the rounds come to an end.
-/

namespace LeafGrammar

variable {slots : Slots} {text : List Char}

/-- The node ends at the offset, with an ending that has the property. -/
def Answers (slots : Slots) (text : List Char) (n : Node) (pos : Integral)
    (P : Finish → Prop) : Prop :=
  ∃ e, Derives slots text (.node n pos) e ∧ P e

/-- An ending that is a success with the one property, or a failure with the other, or a
fault with the third. -/
def Finish.Meets (ok : List Value → Integral → Prop) (no : Prop) (fault : Fault → Prop) :
    Finish → Prop
  | .ok (.success tokens pos) => ok tokens pos
  | .ok (.failure _ _) => no
  | .error f => fault f

namespace Finish

variable {ok : List Value → Integral → Prop} {no : Prop} {fault : Fault → Prop}

@[simp] theorem meets_success {tokens : List Value} {pos : Integral} :
    Meets ok no fault (.ok (.success tokens pos)) ↔ ok tokens pos := .rfl

@[simp] theorem meets_failure {pos : Integral} {c : Option Complaint} :
    Meets ok no fault (.ok (.failure pos c)) ↔ no := .rfl

@[simp] theorem meets_fault {f : Fault} : Meets ok no fault (.error f) ↔ fault f := .rfl

theorem Meets.imp {ok' : List Value → Integral → Prop} {no' : Prop} {fault' : Fault → Prop}
    {e : Finish} (h : Meets ok no fault e) (hok : ∀ tokens pos, ok tokens pos → ok' tokens pos)
    (hno : no → no') (hfault : ∀ f, fault f → fault' f) : Meets ok' no' fault' e := by
  rcases e with f | ⟨tokens, pos⟩ | ⟨pos, c⟩
  · exact hfault f h
  · exact hok tokens pos h
  · exact hno h

end Finish

namespace Answers

variable {id : NodeId} {pos : Integral} {P : Finish → Prop}
variable {ok : List Value → Integral → Prop} {no : Prop} {fault : Fault → Prop}

theorem imp {Q : Finish → Prop} {n : Node} (h : Answers slots text n pos P) (hPQ : ∀ e, P e → Q e) :
    Answers slots text n pos Q := by
  obtain ⟨e, he, hP⟩ := h
  exact ⟨e, he, hPQ e hP⟩

/-- A sequence: the right rule has to answer from wherever the left one stops. -/
theorem seq {l r : Node}
    (hl : Answers slots text l pos
      (Finish.Meets (fun tokens q => Answers slots text r q fun e => P (e.after tokens))
        (∀ q c, P (.ok (.failure q c))) fun f => P (.error f))) :
    Answers slots text (.seq id l r) pos P := by
  obtain ⟨f | ⟨tokens, q⟩ | ⟨q, c⟩, he, h⟩ := hl
  · exact ⟨_, .seqStop he trivial, h⟩
  · obtain ⟨e, hr, hP⟩ := h
    exact ⟨_, .seq he hr, hP⟩
  · exact ⟨_, .seqStop he trivial, h q c⟩

/-- A choice between two rules that both answer so. -/
theorem choice {l r : Node} (hl : Answers slots text l pos P) (hr : Answers slots text r pos P) :
    Answers slots text (.choice id l r) pos P := by
  obtain ⟨f | ⟨tokens, q⟩ | ⟨q, c⟩, he, h⟩ := hl
  · exact ⟨_, .choiceLeft he (Finish.not_isFailure_fault f), h⟩
  · exact ⟨_, .choiceLeft he (Finish.not_isFailure_success tokens q), h⟩
  · obtain ⟨e, hr, hP⟩ := hr
    exact ⟨_, .choiceRight he hr, hP⟩

/-- A mapped rule: its tokens are handed to the action. -/
theorem map {child : Node} {action : Action}
    (h : Answers slots text child pos
      (Finish.Meets
        (fun tokens q => P ((action.newTokens tokens).map (Result.success · q)))
        (∀ q c, P (.ok (.failure q c))) fun f => P (.error f))) :
    Answers slots text (.map id child action) pos P := by
  obtain ⟨f | ⟨tokens, q⟩ | ⟨q, c⟩, he, h⟩ := h
  · exact ⟨_, .mapStop he trivial, h⟩
  · exact ⟨_, .map he, h⟩
  · exact ⟨_, .mapStop he trivial, h q c⟩

/-- An injection point that is resolved: a sequence of its base and what is in its slot. -/
theorem splice {base target : Node} {slot : SlotId} (ht : slots.target? slot = some target)
    (hb : Answers slots text base pos
      (Finish.Meets (fun tokens q => Answers slots text target q fun e => P (e.after tokens))
        (∀ q c, P (.ok (.failure q c))) fun f => P (.error f))) :
    Answers slots text (.splice id base slot) pos P := by
  obtain ⟨f | ⟨tokens, q⟩ | ⟨q, c⟩, he, h⟩ := hb
  · exact ⟨_, .spliceStop he trivial, h⟩
  · obtain ⟨e, hr, hP⟩ := h
    exact ⟨_, .splice he ht hr, hP⟩
  · exact ⟨_, .spliceStop he trivial, h q c⟩

end Answers

/-! ### Actions and optional rules -/

namespace Derives

variable {id : NodeId} {child : Node} {pos q : Integral} {tokens : List Value}

/-- An action that does not fault replaces the tokens. -/
theorem mapTokens {action : Action} {tokens' : List Value}
    (h : Derives slots text (.node child pos) (.ok (.success tokens q)))
    (haction : action.newTokens tokens = .ok tokens') :
    Derives slots text (.node (.map id child action) pos) (.ok (.success tokens' q)) := by
  have hmap : Derives slots text (.node (.map id child action) pos) _ := .map h
  rw [haction] at hmap
  exact hmap

/-- An optional rule that fails succeeds with nothing. -/
theorem optionalFailure {c : Option Complaint}
    (h : Derives slots text (.node child pos) (.ok (.failure q c))) :
    Derives slots text (.node (.rep id child (.num 0) (some (.num 1))) pos)
      (.ok (.success [] pos)) :=
  .rep (.roundsOver rfl h)

/-- An optional rule that moves on makes one round. -/
theorem optionalSuccess (h : Derives slots text (.node child pos) (.ok (.success tokens q)))
    (hne : q.toInt ≠ pos.toInt) :
    Derives slots text (.node (.rep id child (.num 0) (some (.num 1))) pos)
      (.ok (.success tokens q)) :=
  .rep (.roundsNext rfl h hne (.roundsFull rfl))

theorem optionalFault {f : Fault} (h : Derives slots text (.node child pos) (.error f)) :
    Derives slots text (.node (.rep id child (.num 0) (some (.num 1))) pos) (.error f) :=
  .rep (.roundsFault rfl h)

end Derives

namespace Answers

variable {id : NodeId} {child : Node} {P : Finish → Prop}

/-- An optional rule whose rule does not succeed without moving on. -/
theorem optional {pos : Integral}
    (h : Answers slots text child pos
      (Finish.Meets (fun tokens q => q.toInt ≠ pos.toInt ∧ P (.ok (.success tokens q)))
        (P (.ok (.success [] pos))) fun f => P (.error f))) :
    Answers slots text (.rep id child (.num 0) (some (.num 1))) pos P := by
  obtain ⟨f | ⟨tokens, q⟩ | ⟨q, c⟩, he, h⟩ := h
  · exact ⟨_, .optionalFault he, h⟩
  · exact ⟨_, .optionalSuccess he h.1, h.2⟩
  · exact ⟨_, .optionalFailure he, h⟩

/-! ### Repetitions -/

/-- What a round has to do: go on to a later offset of the text and keep the invariant,
or else leave the repetition with what it has. -/
def Round (text : List Char) (I : List Value → Nat → Prop) (P : Finish → Prop)
    (tokens : List Value) (k : Nat) : Finish → Prop :=
  Finish.Meets
    (fun round q => ∃ k' : Nat, q = .num k' ∧ k < k' ∧ k' ≤ text.length ∧ I (tokens ++ round) k')
    (P (.ok (.success tokens (.num k)))) fun f => P (.error f)

theorem rounds {I : List Value → Nat → Prop}
    (hround : ∀ tokens k, I tokens k →
      Answers slots text child (.num k) (Round text I P tokens k)) :
    ∀ left tokens k count, text.length - k ≤ left → I tokens k →
      ∃ e, Derives slots text (.rounds child (.num 0) none tokens (.num k) count) e ∧ P e := by
  intro left
  -- on what is left of the text: a round that goes on leaves less
  induction left with
  | zero =>
    intro tokens k count hk hI
    obtain ⟨f | ⟨round, q⟩ | ⟨q, c⟩, he, h⟩ := hround tokens k hI
    · exact ⟨_, .roundsFault rfl he, h⟩
    · obtain ⟨k', -, hlt, hle, -⟩ := h
      omega
    · exact ⟨_, .roundsOver rfl he, h⟩
  | succ left ih =>
    intro tokens k count hk hI
    obtain ⟨f | ⟨round, q⟩ | ⟨q, c⟩, he, h⟩ := hround tokens k hI
    · exact ⟨_, .roundsFault rfl he, h⟩
    · obtain ⟨k', rfl, hlt, hle, hI'⟩ := h
      obtain ⟨e, hd, hP⟩ := ih (tokens ++ round) k' (count + 1) (by omega) hI'
      refine ⟨e, .roundsNext rfl he ?_ hd, hP⟩
      simp only [Integral.toInt_num]
      omega
    · exact ⟨_, .roundsOver rfl he, h⟩

/-- A repetition without bounds, by an invariant of its rounds. -/
theorem star {I : List Value → Nat → Prop} {k : Nat} (hI : I [] k)
    (hround : ∀ tokens k, I tokens k →
      Answers slots text child (.num k) (Round text I P tokens k)) :
    Answers slots text (.rep id child (.num 0) none) (.num k) P := by
  obtain ⟨e, hd, hP⟩ := rounds hround (text.length - k) [] k 0 (Nat.le_refl _) hI
  exact ⟨e, .rep hd, hP⟩

end Answers

end LeafGrammar
