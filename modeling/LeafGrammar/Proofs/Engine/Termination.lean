import LeafGrammar.Proofs.Engine.Offsets
import LeafGrammar.Proofs.Engine.Refinement
import LeafGrammar.Proofs.Rule.Graph

/-!
# Rules that end

A run for ever goes through a slot again and again without moving on, since slots are the
only way back to where a rule came from. So a rule ends on every text if the base of each
injection point that it can come to takes a character at least (`Node.Guarded`,
`Node.Guarded.exists_derives`).

The measure is what is left of the text, and below that the size of the node: a part of a
node starts with no more text left than the node, and the rule in a slot starts with less.
A repetition needs none of the condition, whatever its bounds are: a round that does not
move on is the last one.
-/

namespace LeafGrammar

/-- The number of characters from the offset to the end of the text. -/
def Text.left (text : List Char) (pos : Integral) : Nat := (text.length - pos.toInt).toNat

namespace IsAhead

variable {text : List Char} {pos q : Integral}

theorem left_le (h : IsAhead text pos q) : Text.left text q ≤ Text.left text pos := by
  have hle := h.le
  unfold Text.left
  omega

/-- Going on takes from what is left. -/
theorem left_lt (h : IsAhead text pos q) (hlt : pos.toInt < q.toInt) :
    Text.left text q < Text.left text pos := by
  have hend := h.le_end
  unfold Text.left
  omega

end IsAhead

variable {slots : Slots} {text : List Char}

namespace Node

/-- Each success of the node is behind the offset that it started from. -/
def Advances (slots : Slots) (text : List Char) (n : Node) : Prop :=
  ∀ (fuel : Nat) (pos q : Integral) (tokens : List Value),
    evaluate fuel slots text n pos = .value (.success tokens q) → pos.toInt < q.toInt

/-- The base of every injection point that can be reached advances. -/
def Guarded (slots : Slots) (text : List Char) (n : Node) : Prop :=
  ∀ (id : NodeId) (base : Node) (slot : SlotId), n.Reaches slots (.splice id base slot) →
    base.Advances slots text

/-! ### Nodes that advance -/

theorem advances_iff {n : Node} : n.Advances slots text ↔
    ∀ (pos q : Integral) (tokens : List Value),
      Derives slots text (.node n pos) (.ok (.success tokens q)) → pos.toInt < q.toInt := by
  constructor
  · intro h pos q tokens hd
    obtain ⟨fuel, hf⟩ := Machine.exists_evaluate_eq_iff.mpr hd
    exact h fuel pos q tokens hf
  · intro h fuel pos q tokens hf
    exact h pos q tokens (Machine.exists_evaluate_eq_iff.mp ⟨fuel, hf⟩)

/-- A leaf whose pattern takes a character at least. -/
theorem Advances.leaf {id : NodeId} {p : Pattern} (hp : ∀ input, p.matched? input ≠ some []) :
    (Node.leaf id p).Advances slots text := by
  refine advances_iff.mpr fun pos q tokens hd => ?_
  have he : leafResult p text pos = .success tokens q :=
    Except.ok.inj (Machine.derives_unique .leaf hd)
  unfold leafResult at he
  simp only at he
  split at he
  · cases he
  · split at he
    · cases he
    · rename_i found hfound
      cases he
      have hpos : 0 < found.length := List.length_pos_iff.mpr fun h => hp _ (h ▸ hfound)
      simp only [Integral.toInt_advance]
      omega

/-- A sequence whose right rule advances: the left one does not go back. -/
theorem Advances.seq {id : NodeId} {l r : Node} (hr : r.Advances slots text) :
    (Node.seq id l r).Advances slots text := by
  refine advances_iff.mpr fun pos q tokens hd => ?_
  generalize he : (.ok (.success tokens q) : Finish) = e at hd
  cases hd with
  | seqStop _ hs =>
    subst he
    exact hs.elim
  | @seq _ _ _ _ q' _ e' hl hd' =>
    rcases e' with f | ⟨more, q''⟩ | ⟨q'', c⟩
    · cases he
    · cases he
      exact Int.lt_of_le_of_lt hl.isAhead_of_success.le (advances_iff.mp hr _ _ _ hd')
    · cases he

theorem Advances.map {id : NodeId} {child : Node} {action : Action}
    (h : child.Advances slots text) : (Node.map id child action).Advances slots text := by
  refine advances_iff.mpr fun pos q tokens hd => ?_
  generalize he : (.ok (.success tokens q) : Finish) = e at hd
  cases hd with
  | mapStop _ hs =>
    subst he
    exact hs.elim
  | @map _ _ _ _ q' ts hd' =>
    cases hnew : action.newTokens ts with
    | error f =>
      rw [hnew] at he
      cases he
    | ok new =>
      rw [hnew] at he
      cases he
      exact advances_iff.mp h _ _ _ hd'

/-! ### Guarded nodes -/

theorem Guarded.child {n c : Node} (h : n.Guarded slots text) (hc : c ∈ n.children slots) :
    c.Guarded slots text :=
  fun id base slot hr => h id base slot (.head hc hr)

/-- The injection points that a node is made with are enough, if those of the nodes in their
slots are among them. -/
theorem guarded_of_injections {P : Node × SlotId → Prop} {n : Node}
    (hP : ∀ x target, P x → slots.target? x.2 = some target → ∀ y ∈ target.injections, P y)
    (hn : ∀ x ∈ n.injections, P x) (hbase : ∀ x, P x → x.1.Advances slots text) :
    n.Guarded slots text :=
  fun _ base slot hr => hbase (base, slot) (hr.injections hP hn (base, slot) List.mem_cons_self)

/-! ### Guarded nodes end -/

/-- Rounds come to an end if the child ends wherever no more of the text is left: a round after
which there is another one has moved on. -/
theorem exists_derives_rounds {child : Node} {least : Integral} {most : Option Integral} {left : Nat}
    (hchild : ∀ pos, Text.left text pos ≤ left → ∃ e, Derives slots text (.node child pos) e) :
    ∀ (tokens : List Value) (cur : Integral) (count : Nat), Text.left text cur ≤ left →
      ∃ e, Derives slots text (.rounds child least most tokens cur count) e := by
  induction left using Nat.strongRecOn with
  | ind left ih =>
    intro tokens cur count hcur
    cases hgo : Machine.mayGoOn most count with
    | false => exact ⟨_, .roundsFull hgo⟩
    | true =>
      obtain ⟨f | ⟨round, q⟩ | ⟨q, c⟩, hd⟩ := hchild cur hcur
      · exact ⟨_, .roundsFault hgo hd⟩
      · by_cases hq : q.toInt = cur.toInt
        · cases most with
          | none => exact ⟨_, .roundsFree hd hq⟩
          | some m => exact ⟨_, .roundsSettled hgo hd hq⟩
        · have hahead := hd.isAhead_of_success
          have hle := hahead.le
          have hlt := hahead.left_lt (by omega)
          obtain ⟨e, hrest⟩ := ih (Text.left text q) (by omega)
            (fun pos hpos => hchild pos (by omega)) (tokens ++ round) q (count + 1) (Nat.le_refl _)
          exact ⟨e, .roundsNext hgo hd hq hrest⟩
      · exact ⟨_, .roundsOver hgo hd⟩

/-- A node that has a first part and then a second one ends if the first part does, and the second
one does from wherever the first one stops. -/
theorem exists_derives_seq {id : NodeId} {l r : Node} {pos : Integral}
    (hl : ∃ e, Derives slots text (.node l pos) e)
    (hr : ∀ q, IsAhead text pos q → ∃ e, Derives slots text (.node r q) e) :
    ∃ e, Derives slots text (.node (.seq id l r) pos) e := by
  obtain ⟨f | ⟨tokens, q⟩ | ⟨q, c⟩, hd⟩ := hl
  · exact ⟨_, .seqStop hd trivial⟩
  · obtain ⟨e, hd'⟩ := hr q hd.isAhead_of_success
    exact ⟨_, .seq hd hd'⟩
  · exact ⟨_, .seqStop hd trivial⟩

theorem exists_derives_choice {id : NodeId} {l r : Node} {pos : Integral}
    (hl : ∃ e, Derives slots text (.node l pos) e) (hr : ∃ e, Derives slots text (.node r pos) e) :
    ∃ e, Derives slots text (.node (.choice id l r) pos) e := by
  obtain ⟨f | ⟨tokens, q⟩ | ⟨q, c⟩, hd⟩ := hl
  · exact ⟨_, .choiceLeft hd (Finish.not_isFailure_fault f)⟩
  · exact ⟨_, .choiceLeft hd (Finish.not_isFailure_success tokens q)⟩
  · obtain ⟨e, hd'⟩ := hr
    exact ⟨e, .choiceRight hd hd'⟩

theorem exists_derives_map {id : NodeId} {child : Node} {action : Action} {pos : Integral}
    (h : ∃ e, Derives slots text (.node child pos) e) :
    ∃ e, Derives slots text (.node (.map id child action) pos) e := by
  obtain ⟨f | ⟨tokens, q⟩ | ⟨q, c⟩, hd⟩ := h
  · exact ⟨_, .mapStop hd trivial⟩
  · exact ⟨_, .map hd⟩
  · exact ⟨_, .mapStop hd trivial⟩

/-- An injection point ends if its base does, and the rule in the slot does from behind it. -/
theorem exists_derives_splice {id : NodeId} {base : Node} {slot : SlotId} {pos : Integral}
    (hb : ∃ e, Derives slots text (.node base pos) e) (hadvances : base.Advances slots text)
    (ht : ∀ target q, slots.target? slot = some target → Text.left text q < Text.left text pos →
      ∃ e, Derives slots text (.node target q) e) :
    ∃ e, Derives slots text (.node (.splice id base slot) pos) e := by
  obtain ⟨f | ⟨tokens, q⟩ | ⟨q, c⟩, hd⟩ := hb
  · exact ⟨_, .spliceStop hd trivial⟩
  · cases hslot : slots.target? slot with
    | none => exact ⟨_, .spliceEmpty hd hslot⟩
    | some target =>
      have hlt := hd.isAhead_of_success.left_lt (advances_iff.mp hadvances _ _ _ hd)
      obtain ⟨e, hd'⟩ := ht target q hslot hlt
      exact ⟨_, .splice hd hslot hd'⟩
  · exact ⟨_, .spliceStop hd trivial⟩

/-- **A guarded node ends at every offset.** -/
theorem Guarded.exists_derives {n : Node} (h : n.Guarded slots text) (pos : Integral) :
    ∃ e, Derives slots text (.node n pos) e := by
  -- on what is left of the text, and below that on the node
  suffices hall : ∀ (left : Nat) (n : Node), n.Guarded slots text → ∀ pos, Text.left text pos ≤ left →
      ∃ e, Derives slots text (.node n pos) e from hall _ n h pos (Nat.le_refl _)
  intro left
  induction left using Nat.strongRecOn with
  | ind left ih =>
    intro n hn
    induction n with
    | leaf id p => exact fun pos _ => ⟨_, .leaf⟩
    | empty id => exact fun pos _ => ⟨_, .empty⟩
    | seq id l r ihl ihr =>
      intro pos hpos
      exact exists_derives_seq (ihl (hn.child (by simp [children])) pos hpos) fun q hq =>
        ihr (hn.child (by simp [children])) q (Nat.le_trans hq.left_le hpos)
    | choice id l r ihl ihr =>
      intro pos hpos
      exact exists_derives_choice (ihl (hn.child (by simp [children])) pos hpos)
        (ihr (hn.child (by simp [children])) pos hpos)
    | rep id child least most ihc =>
      intro pos hpos
      obtain ⟨e, hd⟩ : ∃ e, Derives slots text (.rounds child least most [] pos 0) e :=
        exists_derives_rounds (ihc (hn.child (by simp [children]))) [] pos 0 hpos
      exact ⟨e, .rep hd⟩
    | map id child action ihc =>
      intro pos hpos
      exact exists_derives_map (ihc (hn.child (by simp [children])) pos hpos)
    | splice id base slot ihb =>
      intro pos hpos
      refine exists_derives_splice (ihb (hn.child ?_) pos hpos) (hn id base slot .refl)
        fun target q hslot hlt =>
          ih (Text.left text q) (by omega) target (hn.child ?_) q (Nat.le_refl _)
      · simp [children_eq, parts]
      · simp [children, hslot]

end Node

/-! ### Runs that end -/

/-- A machine that stops without a trace stops with one. -/
theorem Machine.runTraced_ne_outOfFuel {fuel : Nat} {s : Machine.State}
    (h : Machine.run slots text fuel s ≠ .outOfFuel) (j : Journal) :
    (Machine.runTraced slots text fuel s j).1 ≠ .outOfFuel := by
  induction fuel generalizing s j with
  | zero => exact absurd rfl h
  | succ fuel ih =>
    rw [run] at h
    rw [runTraced]
    split
    · simp
    · split
      · rename_i hs
        rw [hs] at h
        exact ih h _
      · simp
      · simp

/-- A node that has an ending ends within some number of moves, in every journal. -/
theorem Derives.exists_moves {n : Node} {pos : Integral} {e : Finish}
    (h : Derives slots text (.node n pos) e) :
    ∃ moves, ∀ fuel, moves ≤ fuel → ∀ j : Journal,
      (evaluateIn fuel slots text n pos j).1 ≠ .outOfFuel := by
  obtain ⟨moves, hmoves⟩ := Machine.exists_evaluate_eq_iff.mpr h
  refine ⟨moves, fun fuel hfuel j => ?_⟩
  have hhalts := (Machine.run_eq_ofExcept_iff.mp hmoves).mono hfuel
  have hplain : evaluate fuel slots text n pos ≠ .outOfFuel := by
    unfold evaluate
    rw [Machine.run_eq_ofExcept_iff.mpr hhalts]
    cases e <;> exact nofun
  unfold evaluateIn
  split
  · exact Machine.runTraced_ne_outOfFuel hplain j
  · exact hplain

end LeafGrammar
