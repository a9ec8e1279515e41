import LeafGrammar.Engine.Machine

/-!
# The meaning of a rule

What a node answers at an offset, said without a stack. A sequence runs its left
rule and then its right one from where the left one stopped; a choice runs its
right rule only after the left one failed; a repetition makes rounds of its child;
an injection point runs its base and then the rule in its slot. A fault ends all of
it: no rule below turns one fault into anything else.

`Derives slots text t e` says that the task `t` ends with `e`. The derivation tree
of a node is the tree of the calls that a direct recursion would make, so a node
that would recurse for ever derives nothing. A repetition in the middle of its
rounds is a task of its own, so that one induction serves for both.
-/

namespace LeafGrammar

/-- How a run ends: with a result, or with the fault that stopped it. -/
abbrev Finish := Except Fault Result

namespace Finish

/-- No success: a failure or a fault. What comes next in a sequence is not run. -/
def IsStop : Finish → Prop
  | .ok (.success _ _) => False
  | _ => True

/-- A failure, after which a choice goes on with its right rule. -/
def IsFailure : Finish → Prop
  | .ok (.failure _ _) => True
  | _ => False

/-- The ending of a sequence whose first part gave `tokens` and whose second part
ends so. -/
def after (tokens : List Value) : Finish → Finish
  | .ok (.success more pos) => .ok (.success (tokens ++ more) pos)
  | e => e

@[simp] theorem not_isStop_success (tokens : List Value) (pos : Integral) :
    ¬ IsStop (.ok (.success tokens pos)) := id

@[simp] theorem isStop_failure (pos : Integral) (c : Option Complaint) :
    IsStop (.ok (.failure pos c)) := trivial

@[simp] theorem isStop_fault (f : Fault) : IsStop (.error f) := trivial

@[simp] theorem isFailure_failure (pos : Integral) (c : Option Complaint) :
    IsFailure (.ok (.failure pos c)) := trivial

@[simp] theorem not_isFailure_success (tokens : List Value) (pos : Integral) :
    ¬ IsFailure (.ok (.success tokens pos)) := id

@[simp] theorem not_isFailure_fault (f : Fault) : ¬ IsFailure (.error f) := id

@[simp] theorem after_success (tokens more : List Value) (pos : Integral) :
    after tokens (.ok (.success more pos)) = .ok (.success (tokens ++ more) pos) := rfl

@[simp] theorem after_failure (tokens : List Value) (pos : Integral) (c : Option Complaint) :
    after tokens (.ok (.failure pos c)) = .ok (.failure pos c) := rfl

@[simp] theorem after_fault (tokens : List Value) (f : Fault) :
    after tokens (.error f) = .error f := rfl

@[simp] theorem after_nil (e : Finish) : after [] e = e := by
  rcases e with f | ⟨tokens, pos⟩ | ⟨pos, c⟩ <;> rfl

/-- The ending of a repetition that makes no further round: it succeeds if the rounds
are enough. The complaint about too few names the bound, which may have too many
digits for that. -/
def ofRounds (least : Integral) (tokens : List Value) (cur : Integral) (count : Nat) : Finish :=
  if (count : Int) < least.toInt then
    if least.isShowable then .ok (.failure cur (some (.tooFew least count)))
    else .error (.value .tooManyDigitsToShow)
  else .ok (.success tokens cur)

/-- The ending of a repetition with upper bound `most` whose last round, number
`count`, succeeded where it started: the tokens of the round stand for all rounds up
to the bound, if that many can be counted. -/
def ofSettled (least most : Integral) (tokens round : List Value) (cur : Integral)
    (count : Nat) : Finish :=
  Value.repeatItems round (most.toInt - count) >>= fun more =>
    ofRounds least (tokens ++ more) cur most.toInt.toNat

end Finish

/-- What is to be done: a node at an offset, or the rest of a repetition that has made
`count` rounds, which gave `tokens` and ended at `cur`. -/
inductive Task where
  | node (n : Node) (pos : Integral)
  | rounds (child : Node) (least : Integral) (most : Option Integral) (tokens : List Value)
      (cur : Integral) (count : Nat)

/-- `Derives slots text t e`: the task `t` ends with `e`. -/
inductive Derives (slots : Slots) (text : List Char) : Task → Finish → Prop where
  /-- A leaf answers at once. -/
  | leaf {id : NodeId} {p : Pattern} {pos : Integral} :
      Derives slots text (.node (.leaf id p) pos) (.ok (leafResult p text pos))
  /-- The empty rule succeeds where it is. -/
  | empty {id : NodeId} {pos : Integral} :
      Derives slots text (.node (.empty id) pos) (.ok (.success [] pos))
  /-- A sequence ends with its left rule unless that succeeds. -/
  | seqStop {id : NodeId} {l r : Node} {pos : Integral} {e : Finish} :
      Derives slots text (.node l pos) e → e.IsStop → Derives slots text (.node (.seq id l r) pos) e
  /-- After the left rule has succeeded the right one runs from there. -/
  | seq {id : NodeId} {l r : Node} {pos q : Integral} {tokens : List Value} {e : Finish} :
      Derives slots text (.node l pos) (.ok (.success tokens q)) →
        Derives slots text (.node r q) e →
          Derives slots text (.node (.seq id l r) pos) (e.after tokens)
  /-- A choice ends with its left rule unless that fails. -/
  | choiceLeft {id : NodeId} {l r : Node} {pos : Integral} {e : Finish} :
      Derives slots text (.node l pos) e → ¬ e.IsFailure →
        Derives slots text (.node (.choice id l r) pos) e
  /-- After the left rule has failed the right one runs from the same offset. -/
  | choiceRight {id : NodeId} {l r : Node} {pos q : Integral} {c : Option Complaint} {e : Finish} :
      Derives slots text (.node l pos) (.ok (.failure q c)) →
        Derives slots text (.node r pos) e →
          Derives slots text (.node (.choice id l r) pos) e
  /-- A repetition starts with no rounds made. -/
  | rep {id : NodeId} {child : Node} {least : Integral} {most : Option Integral} {pos : Integral}
      {e : Finish} :
      Derives slots text (.rounds child least most [] pos 0) e →
        Derives slots text (.node (.rep id child least most) pos) e
  /-- The upper bound is reached. -/
  | roundsFull {child : Node} {least : Integral} {most : Option Integral} {tokens : List Value}
      {cur : Integral} {count : Nat} :
      Machine.mayGoOn most count = false →
        Derives slots text (.rounds child least most tokens cur count)
          (.ofRounds least tokens cur count)
  /-- A round that fails is the end of the rounds, and nothing of it is kept. -/
  | roundsOver {child : Node} {least : Integral} {most : Option Integral} {tokens : List Value}
      {cur q : Integral} {count : Nat} {c : Option Complaint} :
      Machine.mayGoOn most count = true → Derives slots text (.node child cur) (.ok (.failure q c)) →
        Derives slots text (.rounds child least most tokens cur count)
          (.ofRounds least tokens cur count)
  /-- A fault in a round is the ending. -/
  | roundsFault {child : Node} {least : Integral} {most : Option Integral} {tokens : List Value}
      {cur : Integral} {count : Nat} {f : Fault} :
      Machine.mayGoOn most count = true → Derives slots text (.node child cur) (.error f) →
        Derives slots text (.rounds child least most tokens cur count) (.error f)
  /-- After a round that has moved on the next one starts where it ended. -/
  | roundsNext {child : Node} {least : Integral} {most : Option Integral}
      {tokens round : List Value} {cur q : Integral} {count : Nat} {e : Finish} :
      Machine.mayGoOn most count = true →
        Derives slots text (.node child cur) (.ok (.success round q)) → q.toInt ≠ cur.toInt →
          Derives slots text (.rounds child least most (tokens ++ round) q (count + 1)) e →
            Derives slots text (.rounds child least most tokens cur count) e
  /-- A round that succeeds where it started meets any lower bound if there is no upper
  one. -/
  | roundsFree {child : Node} {least : Integral} {tokens round : List Value} {cur q : Integral}
      {count : Nat} :
      Derives slots text (.node child cur) (.ok (.success round q)) → q.toInt = cur.toInt →
        Derives slots text (.rounds child least none tokens cur count)
          (.ok (.success (tokens ++ round) cur))
  /-- Under an upper bound such a round stands for all the rounds up to it. -/
  | roundsSettled {child : Node} {least m : Integral} {tokens round : List Value}
      {cur q : Integral} {count : Nat} :
      Machine.mayGoOn (some m) count = true →
        Derives slots text (.node child cur) (.ok (.success round q)) → q.toInt = cur.toInt →
          Derives slots text (.rounds child least (some m) tokens cur count)
            (.ofSettled least m (tokens ++ round) round cur (count + 1))
  /-- An action is not asked unless its rule succeeds. -/
  | mapStop {id : NodeId} {child : Node} {action : Action} {pos : Integral} {e : Finish} :
      Derives slots text (.node child pos) e → e.IsStop →
        Derives slots text (.node (.map id child action) pos) e
  /-- The tokens of a success are given to the action, which may fault. -/
  | map {id : NodeId} {child : Node} {action : Action} {pos q : Integral} {tokens : List Value} :
      Derives slots text (.node child pos) (.ok (.success tokens q)) →
        Derives slots text (.node (.map id child action) pos)
          ((action.newTokens tokens).map (.success · q))
  /-- An injection point ends with its base unless that succeeds. -/
  | spliceStop {id : NodeId} {base : Node} {slot : SlotId} {pos : Integral} {e : Finish} :
      Derives slots text (.node base pos) e → e.IsStop →
        Derives slots text (.node (.splice id base slot) pos) e
  /-- An empty slot is a fault once the base has succeeded. -/
  | spliceEmpty {id : NodeId} {base : Node} {slot : SlotId} {pos q : Integral}
      {tokens : List Value} :
      Derives slots text (.node base pos) (.ok (.success tokens q)) → slots.target? slot = none →
        Derives slots text (.node (.splice id base slot) pos) (.error (.grammar .reachedUnresolved))
  /-- After the base has succeeded the rule in the slot runs from there. -/
  | splice {id : NodeId} {base target : Node} {slot : SlotId} {pos q : Integral}
      {tokens : List Value} {e : Finish} :
      Derives slots text (.node base pos) (.ok (.success tokens q)) →
        slots.target? slot = some target → Derives slots text (.node target q) e →
          Derives slots text (.node (.splice id base slot) pos) (e.after tokens)

end LeafGrammar
