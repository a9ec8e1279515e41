import LeafGrammar.Proofs.Engine.Repetition
import LeafGrammar.Proofs.Engine.Tracing
import LeafGrammar.Proofs.Engine.Waiting
import LeafGrammar.Proofs.Number.Literal

/-!
# Rules that a trace cannot stop

A trace stops a run where an integer with too many digits stands in what it writes. In the run of a
rule there are three sorts of integers: bounds of repetitions in labels, offsets, and integers among
the tokens. The bounds are known, the offsets stay in the text, and integers among the tokens are
made by actions. So if the bounds can be written, no action makes integers and the length of the
text can be written, then a trace does not stop the run (`Node.Legible.evaluateIn_eq`).
-/

namespace LeafGrammar

/-! ### Values without integers -/

/-- No integer stands in the value. -/
def Value.IsPlain (v : Value) : Prop := ∀ n, ¬ v.Holds n

namespace Value.IsPlain

variable {vs : List Value} {es : List (Value × Value)}

theorem text (s : String) : (Value.text s).IsPlain := nofun

theorem list_iff : (Value.list vs).IsPlain ↔ ∀ v ∈ vs, v.IsPlain :=
  ⟨fun h _ hv n hn => h n (.list hv hn), fun h _ => fun | .list hv hn => h _ hv _ hn⟩

theorem tuple_iff : (Value.tuple vs).IsPlain ↔ ∀ v ∈ vs, v.IsPlain :=
  ⟨fun h _ hv n hn => h n (.tuple hv hn), fun h _ => fun | .tuple hv hn => h _ hv _ hn⟩

theorem dict_iff : (Value.dict es).IsPlain ↔ ∀ e ∈ es, e.1.IsPlain ∧ e.2.IsPlain :=
  ⟨fun h _ he => ⟨fun n hn => h n (.key he hn), fun n hn => h n (.entry he hn)⟩,
    fun h _ => fun
      | .key he hn => (h _ he).1 _ hn
      | .entry he hn => (h _ he).2 _ hn⟩

/-- What a plain value yields is plain. -/
theorem items {v : Value} (h : v.IsPlain) (hitems : v.items = .ok vs) : ∀ x ∈ vs, x.IsPlain := by
  cases v with
  | text s =>
    cases hitems
    intro x hx
    obtain ⟨c, -, rfl⟩ := List.mem_map.mp hx
    exact .text _
  | list us =>
    cases hitems
    exact list_iff.mp h
  | tuple us =>
    cases hitems
    exact tuple_iff.mp h
  | dict es =>
    cases hitems
    intro x hx
    obtain ⟨e, he, rfl⟩ := List.mem_map.mp hx
    exact (dict_iff.mp h e he).1
  | _ => cases hitems

end Value.IsPlain

/-- Given plain tokens the action gives plain tokens. -/
def Action.KeepsPlain (a : Action) : Prop :=
  ∀ tokens made, (∀ v ∈ tokens, v.IsPlain) → a.newTokens tokens = .ok made → ∀ v ∈ made, v.IsPlain

/-- It does if what it makes of plain tokens is plain. -/
theorem Action.keepsPlain_of_apply {a : Action}
    (h : ∀ tokens v, (∀ t ∈ tokens, t.IsPlain) → a.apply tokens = .ok v → v.IsPlain) :
    a.KeepsPlain := by
  intro tokens made htokens hmade
  obtain ⟨v, hv, hitems⟩ := exists_of_bind_eq_ok hmade
  exact (h tokens v htokens hv).items hitems

/-! ### Rules without integers -/

/-- The bounds of the node can be written, and its action makes no integers. -/
def Node.IsLegible : Node → Prop
  | .rep _ _ least most => least.isShowable = true ∧ ∀ m ∈ most, m.isShowable = true
  | .map _ _ action => action.KeepsPlain
  | _ => True

/-- This is true of every node that can be reached. -/
def Node.Legible (slots : Slots) (root : Node) : Prop := ∀ m, root.Reaches slots m → m.IsLegible

namespace Node

variable {slots : Slots} {n c : Node}

theorem Legible.child (h : n.Legible slots) (hc : c ∈ n.children slots) : c.Legible slots :=
  fun m hm => h m (.head hc hm)

theorem Legible.part (h : n.Legible slots) (hc : c ∈ n.parts) : c.Legible slots :=
  h.child (by rw [children_eq]; exact List.mem_append_left _ hc)

/-- A node is legible if its pieces are, and those of the nodes in the slots of its injection
points. -/
theorem Legible.of_pieces {S : SlotId → Prop}
    (hS : ∀ slot target, S slot → slots.target? slot = some target →
      (∀ x ∈ target.points, S x) ∧ ∀ x ∈ target.pieces, x.IsLegible)
    (hpoints : ∀ x ∈ n.points, S x) (hn : ∀ x ∈ n.pieces, x.IsLegible) : n.Legible slots := by
  let P (x : Node) : Prop := x.IsLegible ∧ ∀ id base slot, x = .splice id base slot → S slot
  have hpieces {n : Node} (hpoints : ∀ x ∈ n.points, S x) (hn : ∀ x ∈ n.pieces, x.IsLegible) :
      ∀ x ∈ n.pieces, P x := by
    refine fun x hx => ⟨hn x hx, ?_⟩
    rintro id base slot rfl
    exact hpoints slot (mem_points_of_mem_pieces hx)
  intro m hm
  refine (hm.pieces (P := P) ?_ (hpieces hpoints hn) m (self_mem_pieces m)).1
  intro id base slot target hslot htarget
  obtain ⟨hpoints, htarget⟩ := hS slot target (hslot.2 id base slot rfl) htarget
  exact hpieces hpoints htarget

/-- A label that can be written. -/
theorem IsLegible.not_labelHolds (h : n.IsLegible) {k : Int} (hk : Number.IsLong k) :
    ¬ n.LabelHolds k := by
  cases n with
  | rep id child least most =>
    have hlong {i : Integral} (hi : i.isShowable = true) : i ≠ .num k := by
      rintro rfl
      exact absurd hi (by rw [Integral.isShowable, Number.isLong_iff.mp hk]; exact Bool.false_ne_true)
    rintro (rfl | rfl)
    · exact hlong h.1 rfl
    · exact hlong (h.2 _ rfl) rfl
  | _ => exact False.elim

end Node

/-- A success gives plain tokens. -/
def Finish.IsPlain : Finish → Prop
  | .ok (.success tokens _) => ∀ v ∈ tokens, v.IsPlain
  | _ => True

namespace Finish

variable {e : Finish} {tokens round : List Value}

theorem IsPlain.after (he : e.IsPlain) (htokens : ∀ v ∈ tokens, v.IsPlain) :
    (e.after tokens).IsPlain := by
  rcases e with f | ⟨more, q⟩ | ⟨q, c⟩
  · trivial
  · exact List.forall_mem_append.mpr ⟨htokens, he⟩
  · trivial

theorem leafResult_isPlain (p : Pattern) (text : List Char) (pos : Integral) :
    IsPlain (.ok (leafResult p text pos)) := by
  simp only [leafResult]
  split
  · trivial
  · split
    · trivial
    · exact List.forall_mem_singleton.mpr (.text _)

theorem ofRounds_isPlain (least cur : Integral) (count : Nat) (htokens : ∀ v ∈ tokens, v.IsPlain) :
    (ofRounds least tokens cur count).IsPlain := by
  unfold ofRounds
  split
  · split <;> trivial
  · exact htokens

theorem ofSettled_isPlain (least m cur : Integral) (count : Nat)
    (htokens : ∀ v ∈ tokens, v.IsPlain) (hround : ∀ v ∈ round, v.IsPlain) :
    (ofSettled least m tokens round cur count).IsPlain := by
  unfold ofSettled
  cases hmore : Value.repeatItems round (m.toInt - count) with
  | error f => trivial
  | ok more =>
    rw [Value.repeatItems_ok hmore round, Value.repeated_eq] at hmore
    cases hmore
    refine ofRounds_isPlain _ _ _ (List.forall_mem_append.mpr ⟨htokens, fun v hv => ?_⟩)
    obtain ⟨copy, hcopy, hv⟩ := List.mem_flatten.mp hv
    exact hround v (List.eq_of_mem_replicate hcopy ▸ hv)

end Finish

/-- The node of the task is legible, and the tokens that it has so far are plain. -/
def Task.Legible (slots : Slots) : Task → Prop
  | .node n _ => n.Legible slots
  | .rounds child _ _ tokens _ _ => child.Legible slots ∧ ∀ v ∈ tokens, v.IsPlain

variable {slots : Slots} {text : List Char}

/-- **A legible rule gives plain tokens.** -/
theorem Derives.isPlain {t : Task} {e : Finish} (h : Derives slots text t e)
    (ht : t.Legible slots) : e.IsPlain := by
  induction h with
  | leaf => exact Finish.leafResult_isPlain ..
  | empty => exact List.forall_mem_nil _
  | seqStop _ _ ih => exact ih (ht.part (by simp [Node.parts]))
  | seq _ _ ihl ihr =>
    exact Finish.IsPlain.after (ihr (ht.part (by simp [Node.parts])))
      (ihl (ht.part (by simp [Node.parts])))
  | choiceLeft _ _ ih => exact ih (ht.part (by simp [Node.parts]))
  | choiceRight _ _ _ ihr => exact ihr (ht.part (by simp [Node.parts]))
  | rep _ ih => exact ih ⟨ht.part (by simp [Node.parts]), List.forall_mem_nil _⟩
  | roundsFull _ => exact Finish.ofRounds_isPlain _ _ _ ht.2
  | roundsOver _ _ _ => exact Finish.ofRounds_isPlain _ _ _ ht.2
  | roundsFault _ _ _ => trivial
  | roundsNext _ _ _ _ ih ihr => exact ihr ⟨ht.1, List.forall_mem_append.mpr ⟨ht.2, ih ht.1⟩⟩
  | roundsFree _ _ ih => exact List.forall_mem_append.mpr ⟨ht.2, ih ht.1⟩
  | roundsSettled _ _ _ ih =>
    exact Finish.ofSettled_isPlain _ _ _ _ (List.forall_mem_append.mpr ⟨ht.2, ih ht.1⟩) (ih ht.1)
  | mapStop _ _ ih => exact ih (ht.part (by simp [Node.parts]))
  | @map id child action pos q tokens _ ih =>
    have haction : action.KeepsPlain := ht _ .refl
    cases hmade : action.newTokens tokens with
    | error f => trivial
    | ok made => exact haction _ _ (ih (ht.part (by simp [Node.parts]))) hmade
  | spliceStop _ _ ih => exact ih (ht.part (by simp [Node.parts]))
  | spliceEmpty _ _ _ => trivial
  | splice _ htarget _ ihb iht =>
    exact Finish.IsPlain.after (iht (ht.child (by simp [Node.children, htarget])))
      (ihb (ht.part (by simp [Node.parts])))

/-! ### Runs -/

/-- An offset in a text whose length can be written. -/
theorem Integral.not_isLong_of_isAhead {p q : Integral} {n : Int}
    (htext : Number.isWritable text.length = true) (hp : IsAhead text (.num 0) p)
    (hq : IsAhead text p q) (h : q = .num n) : ¬ Number.IsLong n := by
  subst h
  have hahead := hp.trans hq
  have hle := hahead.le_end
  have hge := hahead.le
  simp only [Integral.toInt_num] at hle hge
  rw [Number.isWritable_iff] at htext
  rw [Number.isLong_iff, Bool.not_eq_false, Number.isWritable_iff]
  omega

namespace Node.Legible

open Machine

variable {root : Node}

/-- What a run from the start of the text writes can be written. -/
theorem not_stopsAt (h : root.Legible slots) (htext : Number.isWritable text.length = true)
    (j : Journal) (st : State) : ¬ StopsAt slots text (.visit root (.num 0) []) j st := by
  intro hstop
  have honward : Onward slots text (.visit root (.num 0) []) st := by
    obtain ⟨j', f, hon, -⟩ := hstop
    exact hon.lift Prod.fst fun _ _ hmove => hmove.2
  have hsound := isSound_of_onward honward
  obtain ⟨n, hlong, ⟨record, hrecord, hn⟩ | hn⟩ := hstop.exists_long
  · match st, hrecord, hsound with
    | .visit node p stack, rfl, hwaits =>
      exact (h node hwaits.reaches).not_labelHolds hlong hn
    | .give r (frame :: stack), rfl, ⟨node, p, hwaits, hd⟩ =>
      have hlegible : node.Legible slots := fun m hm => h m (hwaits.reaches.trans hm)
      cases r with
      | failure q c => exact Integral.not_isLong_of_isAhead htext hwaits.isAhead hd.isAhead hn hlong
      | success tokens q =>
        rcases hn with ⟨v, hv, hholds⟩ | hq
        · exact hd.isPlain hlegible v hv n hholds
        · exact Integral.not_isLong_of_isAhead htext hwaits.isAhead hd.isAhead hq hlong
  · exact Integral.not_isLong_of_isAhead htext (.refl text _) (.refl text _) hn hlong

/-- **A trace does not stop the run of a legible rule.** -/
theorem evaluateIn_eq (h : root.Legible slots) (htext : Number.isWritable text.length = true)
    (fuel : Nat) (j : Journal) :
    (evaluateIn fuel slots text root (.num 0) j).1 = evaluate fuel slots text root (.num 0) := by
  rcases evaluateIn_cases fuel slots text root (.num 0) j with hsame | ⟨-, st, hst⟩
  · exact hsame
  · exact absurd hst (h.not_stopsAt htext j st)

end Node.Legible

end LeafGrammar
