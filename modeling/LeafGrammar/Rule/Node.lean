import LeafGrammar.Pattern.Basic
import LeafGrammar.Value.Basic

/-!
# Rule nodes

What a rule says, as a tree. A tree cannot hold itself: a rule that refers back
to itself does so through a slot, a cell outside the tree that is filled once
the rule is finished. So every cycle of a grammar goes through a slot.

A node has the number of the rule that it was made for. Rules share the nodes of
the rules they are made from, so one number can stand at many places of a tree;
it is the same node at all of them.
-/

namespace LeafGrammar

/-- What is done to the tokens of a rule. The result is gone through item by item
and its items are the new tokens. -/
structure Action where
  /-- The name in labels. -/
  name : String
  apply : List Value → Except Fault Value

/-- The new tokens that an action gives. -/
def Action.newTokens (a : Action) (tokens : List Value) : Except Fault (List Value) :=
  a.apply tokens >>= Value.items

/-- The number of a slot. -/
abbrev SlotId := Nat

/-- The number of a node. -/
abbrev NodeId := Nat

/-- What a rule says. -/
inductive Node where
  /-- The pattern, at the current offset. -/
  | leaf (id : NodeId) (pattern : Pattern)
  /-- Nothing, always. -/
  | empty (id : NodeId)
  /-- The left rule, then the right one from where it stopped. -/
  | seq (id : NodeId) (left right : Node)
  /-- The left rule, or the right one from the same offset if it fails. -/
  | choice (id : NodeId) (left right : Node)
  /-- The child again and again, `least` times at least and `most` times at
  most. -/
  | rep (id : NodeId) (child : Node) (least : Integral) (most : Option Integral)
  /-- The child with its tokens given to an action. -/
  | map (id : NodeId) (child : Node) (action : Action)
  /-- The base, then the rule in the slot. -/
  | splice (id : NodeId) (base : Node) (slot : SlotId)

/-- The slots of a session: each empty, or filled with a rule's node. -/
abbrev Slots := Array (Option Node)

/-- The node in a slot, if it is filled. -/
def Slots.target? (slots : Slots) (slot : SlotId) : Option Node := (slots[slot]?).join

namespace Node

/-- The number of a node. -/
def id : Node → NodeId
  | .leaf id _ | .empty id | .seq id _ _ | .choice id _ _ | .rep id _ _ _ | .map id _ _
  | .splice id _ _ => id

/-- The short label of a node in logs and messages. It says what stands at the
root only. A bound with too many digits cannot be shown. -/
def label : Node → Except Fault String
  | .leaf _ p => .ok ("/" ++ p.source ++ "/")
  | .empty _ => .ok "empty"
  | .seq .. => .ok "and"
  | .choice .. => .ok "or"
  | .rep _ _ least most => do
    let high ← match most with
      | none => pure "*"
      | some m => m.shown
    let low ← least.shown
    return "rep(" ++ low ++ "," ++ high ++ ")"
  | .map _ _ action => .ok ("map(" ++ action.name ++ ")")
  | .splice .. => .ok "ipoint"

/-- The nodes that a node refers to, that of a filled slot included. -/
def children (slots : Slots) : Node → List Node
  | .leaf _ _ | .empty _ => []
  | .seq _ l r | .choice _ l r => [l, r]
  | .rep _ c _ _ | .map _ c _ => [c]
  | .splice _ base slot =>
    match slots.target? slot with
    | some target => [base, target]
    | none => [base]

end Node

end LeafGrammar
