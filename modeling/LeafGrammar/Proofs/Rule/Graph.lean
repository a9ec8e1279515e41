import LeafGrammar.Rule.Node
import Mathlib.Logic.Relation

/-!
# The graph of a rule

A node leads to the nodes that it is made of and, at an injection point, to the node
in its slot. `Node.Reaches` is what can be come to in this way. Filling slots adds
edges, but only at injection points that were unresolved: below a node where every
injection point is resolved nothing changes any more (`Resolved.mono`).

What can be reached from a node is among its pieces, or among those of the nodes in the slots that
are come to. So a property of all of it is shown piece by piece (`Reaches.pieces`).
-/

namespace LeafGrammar

open Relation

/-- Every slot that is filled in the one is filled with the same in the other. -/
def Slots.FilledIn (slots slots' : Slots) : Prop :=
  ∀ slot target, slots.target? slot = some target → slots'.target? slot = some target

theorem Slots.FilledIn.refl (slots : Slots) : slots.FilledIn slots := fun _ _ h => h

theorem Slots.FilledIn.trans {a b c : Slots} (h : a.FilledIn b) (h' : b.FilledIn c) :
    a.FilledIn c :=
  fun slot target ht => h' slot target (h slot target ht)

namespace Node

/-- The nodes that a node is made of. -/
def parts : Node → List Node
  | .leaf _ _ | .empty _ => []
  | .seq _ l r | .choice _ l r => [l, r]
  | .rep _ c _ _ | .map _ c _ => [c]
  | .splice _ base _ => [base]

/-- The slot of an injection point. -/
def slot? : Node → Option SlotId
  | .splice _ _ slot => some slot
  | _ => none

/-- The children of a node are its parts, and what is in its slot. -/
theorem children_eq (slots : Slots) (n : Node) :
    n.children slots = n.parts ++ (n.slot?.bind slots.target?).toList := by
  cases n with
  | splice id base slot =>
    simp only [children, parts, slot?, Option.bind_some]
    cases slots.target? slot <;> rfl
  | _ => rfl

theorem length_children_le (slots : Slots) (n : Node) : (n.children slots).length ≤ 2 := by
  cases n with
  | splice id base slot =>
    simp only [children]
    cases slots.target? slot <;> simp
  | _ => simp [children]

/-- An injection point whose slot is empty. -/
def IsUnresolved (slots : Slots) (n : Node) : Prop :=
  ∃ id base slot, n = .splice id base slot ∧ slots.target? slot = none

/-- The nodes that can be come to from a node, itself included. -/
def Reaches (slots : Slots) : Node → Node → Prop :=
  ReflTransGen fun n m => m ∈ n.children slots

/-- Every injection point that can be reached has its slot filled. -/
def Resolved (slots : Slots) (n : Node) : Prop :=
  ∀ m, n.Reaches slots m → ¬ m.IsUnresolved slots

variable {slots slots' : Slots} {n m : Node}

theorem Reaches.child {c : Node} (h : n.Reaches slots m) (hc : c ∈ m.children slots) :
    n.Reaches slots c := ReflTransGen.tail h hc

theorem Reaches.part {c : Node} (h : n.Reaches slots m) (hc : c ∈ m.parts) :
    n.Reaches slots c := by
  refine h.child ?_
  rw [children_eq]
  exact List.mem_append_left _ hc

/-- Filling further slots does not change the children of a node that is resolved. -/
theorem children_eq_of_filledIn (hs : slots.FilledIn slots') (hn : ¬ n.IsUnresolved slots) :
    n.children slots' = n.children slots := by
  cases n with
  | splice id base slot =>
    cases ht : slots.target? slot with
    | none => exact absurd ⟨id, base, slot, rfl, ht⟩ hn
    | some target => simp only [children, ht, hs slot target ht]
  | _ => rfl

theorem not_isUnresolved_of_filledIn (hs : slots.FilledIn slots') (hn : ¬ n.IsUnresolved slots) :
    ¬ n.IsUnresolved slots' := by
  rintro ⟨id, base, slot, rfl, ht⟩
  refine hn ⟨id, base, slot, rfl, ?_⟩
  cases h : slots.target? slot with
  | none => rfl
  | some target =>
    rw [hs slot target h] at ht
    cases ht

/-- **Where all is resolved nothing is added**: from a resolved node the same nodes are
reached after further slots have been filled. -/
theorem Resolved.reaches_iff (hs : slots.FilledIn slots') (h : n.Resolved slots) :
    n.Reaches slots' m ↔ n.Reaches slots m := by
  constructor
  · intro hm
    induction hm with
    | refl => exact .refl
    | tail _ hc ih =>
      rw [children_eq_of_filledIn hs (h _ ih)] at hc
      exact ih.child hc
  · intro hm
    induction hm with
    | refl => exact .refl
    | tail hk hc ih =>
      rw [← children_eq_of_filledIn hs (h _ hk)] at hc
      exact ih.child hc

/-- The slots of the injection points that a node is made with, at whatever depth. -/
def points : Node → List SlotId
  | .leaf _ _ | .empty _ => []
  | .seq _ l r | .choice _ l r => l.points ++ r.points
  | .rep _ c _ _ | .map _ c _ => c.points
  | .splice _ base slot => slot :: base.points

/-- The injection points that a node is made with, at whatever depth: the base of each and
its slot. -/
def injections : Node → List (Node × SlotId)
  | .leaf _ _ | .empty _ => []
  | .seq _ l r | .choice _ l r => l.injections ++ r.injections
  | .rep _ c _ _ | .map _ c _ => c.injections
  | .splice _ base slot => (base, slot) :: base.injections

theorem points_eq_map (n : Node) : n.points = n.injections.map (·.2) := by
  induction n with
  | leaf => rfl
  | empty => rfl
  | seq id l r ihl ihr => simp [points, injections, ihl, ihr]
  | choice id l r ihl ihr => simp [points, injections, ihl, ihr]
  | rep id child least most ih => exact ih
  | map id child action ih => exact ih
  | splice id base slot ih => simp [points, injections, ih]

theorem injections_eq_nil (h : n.points = []) : n.injections = [] := by
  rw [points_eq_map, List.map_eq_nil_iff] at h
  exact h

/-- A node and all that it is made of, at whatever depth. -/
def pieces : Node → List Node
  | .leaf id pattern => [.leaf id pattern]
  | .empty id => [.empty id]
  | .seq id l r => .seq id l r :: (l.pieces ++ r.pieces)
  | .choice id l r => .choice id l r :: (l.pieces ++ r.pieces)
  | .rep id c least most => .rep id c least most :: c.pieces
  | .map id c action => .map id c action :: c.pieces
  | .splice id base slot => .splice id base slot :: base.pieces

theorem self_mem_pieces (n : Node) : n ∈ n.pieces := by
  cases n <;> exact List.mem_cons_self

theorem pieces_part {c : Node} (hc : c ∈ n.parts) : c.pieces ⊆ n.pieces := by
  intro x hx
  cases n with
  | leaf => cases hc
  | empty => cases hc
  | seq id l r =>
    simp only [parts, List.mem_cons, List.not_mem_nil, or_false] at hc
    rcases hc with rfl | rfl <;> simp [pieces, hx]
  | choice id l r =>
    simp only [parts, List.mem_cons, List.not_mem_nil, or_false] at hc
    rcases hc with rfl | rfl <;> simp [pieces, hx]
  | _ =>
    obtain rfl := List.mem_singleton.mp hc
    exact List.mem_cons_of_mem _ hx

theorem mem_injections {x : Node × SlotId} :
    x ∈ n.injections ↔ ∃ id, .splice id x.1 x.2 ∈ n.pieces := by
  induction n with
  | leaf => simp [injections, pieces]
  | empty => simp [injections, pieces]
  | seq id l r ihl ihr => simp [injections, pieces, ihl, ihr, exists_or]
  | choice id l r ihl ihr => simp [injections, pieces, ihl, ihr, exists_or]
  | rep id child least most ih => simp [injections, pieces, ih]
  | map id child action ih => simp [injections, pieces, ih]
  | splice id base slot ih => simp [injections, pieces, ih, exists_or, Prod.ext_iff]

theorem mem_points_of_mem_pieces {id : NodeId} {base : Node} {slot : SlotId}
    (h : .splice id base slot ∈ n.pieces) : slot ∈ n.points := by
  rw [points_eq_map]
  exact List.mem_map.mpr ⟨(base, slot), mem_injections.mpr ⟨id, h⟩, rfl⟩

/-- What is true of the pieces of a node, and of those of the nodes in the slots of its injection
points, is true of the pieces of all that can be reached. -/
theorem Reaches.pieces {P : Node → Prop}
    (hP : ∀ id base slot target, P (.splice id base slot) → slots.target? slot = some target →
      ∀ x ∈ target.pieces, P x)
    (hn : ∀ x ∈ n.pieces, P x) (h : n.Reaches slots m) : ∀ x ∈ m.pieces, P x := by
  induction h with
  | refl => exact hn
  | @tail m c _ hc ih =>
    rw [children_eq, List.mem_append, Option.mem_toList, Option.bind_eq_some_iff] at hc
    rcases hc with hc | ⟨slot, hslot, htarget⟩
    · exact fun x hx => ih x (pieces_part hc hx)
    · cases m with
      | splice id base slot' =>
        cases hslot
        exact hP id base slot c (ih _ List.mem_cons_self) htarget
      | _ => cases hslot

/-- What is true of the injection points that a node is made with, and of those of the nodes in
their slots, is true of all injection points that can be reached. -/
theorem Reaches.injections {P : Node × SlotId → Prop}
    (hP : ∀ x target, P x → slots.target? x.2 = some target → ∀ y ∈ target.injections, P y)
    (hn : ∀ x ∈ n.injections, P x) (h : n.Reaches slots m) : ∀ x ∈ m.injections, P x := by
  let Q (m : Node) : Prop := ∀ id base slot, m = .splice id base slot → P (base, slot)
  have iff (n : Node) : (∀ x ∈ n.injections, P x) ↔ ∀ m ∈ n.pieces, Q m := by
    simp only [mem_injections]
    constructor
    · rintro h m hm id base slot rfl
      exact h (base, slot) ⟨id, hm⟩
    · rintro h ⟨base, slot⟩ ⟨id, hid⟩
      exact h _ hid id base slot rfl
  refine (iff m).mpr (h.pieces ?_ ((iff n).mp hn))
  intro id base slot target hslot htarget
  exact (iff target).mp (hP (base, slot) target (hslot id base slot rfl) htarget)

/-- A node is resolved if the slots of its injection points are filled, with nodes of which
the same is true. -/
theorem resolved_of_points {P : SlotId → Prop}
    (hP : ∀ slot, P slot → ∃ target, slots.target? slot = some target ∧ ∀ x ∈ target.points, P x)
    (hn : ∀ x ∈ n.points, P x) : n.Resolved slots := by
  have iff (n : Node) : (∀ x ∈ n.points, P x) ↔ ∀ x ∈ n.injections, P x.2 := by
    rw [points_eq_map, List.forall_mem_map]
  rintro m hm ⟨id, base, slot, rfl, hempty⟩
  have hslot : P slot := by
    refine hm.injections (P := fun x => P x.2) ?_ ((iff n).mp hn) (base, slot) List.mem_cons_self
    intro x target hx ht
    obtain ⟨target', ht', htarget⟩ := hP x.2 hx
    rw [ht] at ht'
    cases ht'
    exact (iff target).mp htarget
  obtain ⟨target, ht, -⟩ := hP slot hslot
  rw [ht] at hempty
  cases hempty

theorem Resolved.mono (hs : slots.FilledIn slots') (h : n.Resolved slots) : n.Resolved slots' :=
  fun m hm => not_isUnresolved_of_filledIn hs (h m ((h.reaches_iff hs).mp hm))

theorem Resolved.child {c : Node} (h : n.Resolved slots) (hc : c ∈ n.children slots) :
    c.Resolved slots :=
  fun m hm => h m (ReflTransGen.head hc hm)

/-- In the slots of the injection points that a resolved node is made with there are resolved
nodes. -/
theorem Resolved.exists_target (h : n.Resolved slots) :
    ∀ slot ∈ n.points, ∃ target, slots.target? slot = some target ∧ target.Resolved slots := by
  induction n with
  | leaf id p => simp [points]
  | empty id => simp [points]
  | seq id l r ihl ihr =>
    simp only [points, List.mem_append]
    rintro slot (hslot | hslot)
    · exact ihl (h.child (by simp [children])) slot hslot
    · exact ihr (h.child (by simp [children])) slot hslot
  | choice id l r ihl ihr =>
    simp only [points, List.mem_append]
    rintro slot (hslot | hslot)
    · exact ihl (h.child (by simp [children])) slot hslot
    · exact ihr (h.child (by simp [children])) slot hslot
  | rep id child least most ih => exact ih (h.child (by simp [children]))
  | map id child action ih => exact ih (h.child (by simp [children]))
  | splice id base slot ih =>
    cases ht : slots.target? slot with
    | none => exact absurd ⟨id, base, slot, rfl, ht⟩ (h _ .refl)
    | some target =>
      have hbase : base.Resolved slots := h.child (by simp [children, ht])
      have htarget : target.Resolved slots := h.child (by simp [children, ht])
      simp only [points, List.mem_cons, forall_eq_or_imp]
      exact ⟨⟨target, ht, htarget⟩, ih hbase⟩

end Node

end LeafGrammar
