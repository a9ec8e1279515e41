import LeafGrammar.Proofs.Engine.Visits
import LeafGrammar.Proofs.Session.Calls

/-!
# The check is right, and stays right

The search for an unresolved injection point looks at each node once. What it keeps is
`Walk`: no node that has been looked at is unresolved, and its children have been looked
at or are still to do. A node to do costs a move, and a node not looked at yet two
more, those of its children; so the search comes to its end within the moves that it is
given, and if it finds nothing by then, nothing is there.

A rule that has passed keeps its verdict. That is an invariant of every change to a
session (`PassedResolved`), because filling a slot adds nothing below a node that is
resolved already. And a run of a resolved node never comes to an empty slot, since it
stays within the reach of the node.
-/

namespace LeafGrammar

open Relation

namespace Session

/-! ### One move of the search -/

/-- The node has been looked at. -/
def Seen (seen : Array Bool) (n : Node) : Prop := (seen[n.id]?).getD false = true

variable {slots : Slots} {fuel : Nat} {node : Node} {todo : List Node} {seen : Array Bool}

theorem search_of_seen (h : Seen seen node) :
    search slots (fuel + 1) (node :: todo) seen = search slots fuel todo seen := by
  unfold Seen at h
  conv => lhs; unfold search
  rw [if_pos h]

theorem search_of_unresolved (fuel : Nat) (todo : List Node) (h : ¬ Seen seen node)
    (hu : node.IsUnresolved slots) :
    ∃ base ∈ node.parts, search slots (fuel + 1) (node :: todo) seen = .unresolved base := by
  obtain ⟨id, base, slot, rfl, ht⟩ := hu
  refine ⟨base, by simp [Node.parts], ?_⟩
  unfold Seen at h
  unfold search
  rw [if_neg h]
  simp only [Node.children, ht]

theorem search_of_fresh (h : ¬ Seen seen node) (hu : ¬ node.IsUnresolved slots) :
    search slots (fuel + 1) (node :: todo) seen =
      search slots fuel ((node.children slots).reverse ++ todo)
        (seen.setIfInBounds node.id true) := by
  unfold Seen at h
  conv => lhs; unfold search
  rw [if_neg h]
  split
  · rename_i id base slot _ hc
    refine absurd ⟨id, base, slot, rfl, ?_⟩ hu
    cases ht : slots.target? slot with
    | none => rfl
    | some target => simp [Node.children, ht] at hc
  · rfl

/-- What the search finds is there: it is reached from a node to do. -/
theorem exists_of_search_unresolved {base : Node}
    (h : search slots fuel todo seen = .unresolved base) :
    ∃ n ∈ todo, ∃ m, n.Reaches slots m ∧ m.IsUnresolved slots ∧ base ∈ m.parts := by
  induction fuel generalizing todo seen with
  | zero => cases todo <;> simp [search] at h
  | succ fuel ih =>
    cases todo with
    | nil => simp [search] at h
    | cons node todo =>
      by_cases hs : Seen seen node
      · rw [search_of_seen hs] at h
        obtain ⟨n, hn, hm⟩ := ih h
        exact ⟨n, List.mem_cons_of_mem _ hn, hm⟩
      · by_cases hu : node.IsUnresolved slots
        · obtain ⟨base', hb, h'⟩ := search_of_unresolved fuel todo hs hu
          rw [h'] at h
          cases h
          exact ⟨node, List.mem_cons_self, node, .refl, hu, hb⟩
        · rw [search_of_fresh hs hu] at h
          obtain ⟨n, hn, m, hm, hum⟩ := ih h
          rcases List.mem_append.mp hn with hn | hn
          · exact ⟨node, List.mem_cons_self, m, .head (List.mem_reverse.mp hn) hm, hum⟩
          · exact ⟨n, List.mem_cons_of_mem _ hn, m, hm, hum⟩

/-- Further moves change nothing once the search has come to its end. -/
theorem search_add (hend : search slots fuel todo seen ≠ .unfinished) (extra : Nat) :
    search slots (fuel + extra) todo seen = search slots fuel todo seen := by
  induction fuel generalizing todo seen with
  | zero =>
    cases todo with
    | nil => cases extra <;> simp [search]
    | cons node todo => simp [search] at hend
  | succ fuel ih =>
    rw [Nat.add_right_comm]
    cases todo with
    | nil => simp [search]
    | cons node todo =>
      by_cases hs : Seen seen node
      · rw [search_of_seen hs] at hend ⊢
        rw [search_of_seen hs]
        exact ih hend
      · by_cases hu : node.IsUnresolved slots
        · obtain ⟨id, base, slot, rfl, ht⟩ := hu
          have hu : Node.IsUnresolved slots (.splice id base slot) := ⟨id, base, slot, rfl, ht⟩
          obtain ⟨b₁, hb₁, h₁⟩ := search_of_unresolved (fuel + extra) todo hs hu
          obtain ⟨b₂, hb₂, h₂⟩ := search_of_unresolved fuel todo hs hu
          rw [h₁, h₂, List.mem_singleton.mp hb₁, List.mem_singleton.mp hb₂]
        · rw [search_of_fresh hs hu] at hend ⊢
          rw [search_of_fresh hs hu]
          exact ih hend

theorem seen_mark {n m : Node} (hn : n.id < seen.size) :
    Seen (seen.setIfInBounds n.id true) m ↔ m.id = n.id ∨ Seen seen m := by
  unfold Seen
  rw [Array.getElem?_setIfInBounds]
  by_cases h : n.id = m.id
  · rw [if_pos h, if_pos hn]
    simp [h]
  · rw [if_neg h]
    simp [Ne.symm h]

/-- Looking at a node leaves one fewer to look at. -/
theorem count_mark {n : Node} (h : ¬ Seen seen n) (hn : n.id < seen.size) :
    (seen.setIfInBounds n.id true).count false + 1 = seen.count false := by
  have hf : seen[n.id] = false := by
    unfold Seen at h
    rw [Array.getElem?_eq_getElem hn] at h
    simpa using h
  have hpos : 0 < seen.count false := by
    rw [Array.count_pos_iff]
    exact hf ▸ Array.getElem_mem hn
  rw [Array.setIfInBounds, dif_pos hn, Array.count_set, hf]
  simp
  omega

/-! ### Nodes of a session -/

variable {s s' : Session}

/-- The node of a rule of the session. -/
def HasNode (s : Session) (n : Node) : Prop := ∃ r ∈ s.rules, r.node = n

theorem WF.getElem?_of_hasNode {n : Node} (w : s.WF) (h : s.HasNode n) :
    ∃ r, s.rules[n.id]? = some r ∧ r.node = n := by
  obtain ⟨r, hr, rfl⟩ := h
  obtain ⟨i, hi, rfl⟩ := Array.mem_iff_getElem.mp hr
  have hget := Array.getElem?_eq_getElem hi
  rw [(w.id_eq i _ hget).2]
  exact ⟨_, hget, rfl⟩

theorem WF.id_lt {n : Node} (w : s.WF) (h : s.HasNode n) : n.id < s.rules.size := by
  obtain ⟨r, hr, -⟩ := w.getElem?_of_hasNode h
  exact (Array.getElem?_eq_some_iff.mp hr).1

/-- The number tells the node. -/
theorem WF.eq_of_id_eq {n m : Node} (w : s.WF) (hn : s.HasNode n) (hm : s.HasNode m)
    (h : n.id = m.id) : n = m := by
  obtain ⟨r, hr, rfl⟩ := w.getElem?_of_hasNode hn
  obtain ⟨r', hr', rfl⟩ := w.getElem?_of_hasNode hm
  rw [h, hr'] at hr
  cases hr
  rfl

theorem WF.hasNode_child {n c : Node} (w : s.WF) (hn : s.HasNode n)
    (hc : c ∈ n.children s.slots) : s.HasNode c := by
  obtain ⟨r, hr, rfl⟩ := hn
  rw [Node.children_eq, List.mem_append] at hc
  rcases hc with hc | hc
  · obtain ⟨r', hr', hn', -⟩ := w.parts r hr c hc
    exact ⟨r', hr', hn'⟩
  · rw [Option.mem_toList, Option.bind_eq_some_iff] at hc
    obtain ⟨slot, -, ht⟩ := hc
    obtain ⟨r', hr', hn', -⟩ := w.target slot c ht
    exact ⟨r', hr', hn'⟩

theorem WF.hasNode_of_reaches {n m : Node} (w : s.WF) (hn : s.HasNode n)
    (h : n.Reaches s.slots m) : s.HasNode m := by
  induction h with
  | refl => exact hn
  | tail _ hc ih => exact w.hasNode_child ih hc

/-! ### The whole search -/

/-- What the search keeps: the nodes that have been looked at are resolved, and so will be
all below them. -/
structure Walk (s : Session) (todo : List Node) (seen : Array Bool) : Prop where
  nodes : ∀ n ∈ todo, s.HasNode n
  size : seen.size = s.rules.size
  fine : ∀ n, s.HasNode n → Seen seen n → ¬ n.IsUnresolved s.slots
  closed : ∀ n, s.HasNode n → Seen seen n → ∀ c ∈ n.children s.slots, Seen seen c ∨ c ∈ todo

/-- Passing over a node that has been looked at. -/
theorem Walk.skip (h : Walk s (node :: todo) seen) (hs : Seen seen node) : Walk s todo seen where
  nodes n hn := h.nodes n (List.mem_cons_of_mem _ hn)
  size := h.size
  fine := h.fine
  closed n hn hsn c hc := by
    rcases h.closed n hn hsn c hc with hc | hc
    · exact .inl hc
    · rcases List.mem_cons.mp hc with rfl | hc
      · exact .inl hs
      · exact .inr hc

/-- Looking at a node that is resolved. -/
theorem Walk.look (w : s.WF) (h : Walk s (node :: todo) seen) (hu : ¬ node.IsUnresolved s.slots) :
    Walk s ((node.children s.slots).reverse ++ todo) (seen.setIfInBounds node.id true) := by
  have hnode := h.nodes node List.mem_cons_self
  have hid : node.id < seen.size := h.size ▸ w.id_lt hnode
  refine ⟨fun n hn => ?_, by simpa using h.size, fun n hn hsn => ?_, fun n hn hsn c hc => ?_⟩
  · rcases List.mem_append.mp hn with hn | hn
    · exact w.hasNode_child hnode (List.mem_reverse.mp hn)
    · exact h.nodes n (List.mem_cons_of_mem _ hn)
  · rcases (seen_mark hid).mp hsn with he | hsn
    · exact w.eq_of_id_eq hn hnode he ▸ hu
    · exact h.fine n hn hsn
  · rcases (seen_mark hid).mp hsn with he | hsn
    · cases w.eq_of_id_eq hn hnode he
      exact .inr (List.mem_append_left _ (List.mem_reverse.mpr hc))
    · rcases h.closed n hn hsn c hc with hc | hc
      · exact .inl ((seen_mark hid).mpr (.inr hc))
      · rcases List.mem_cons.mp hc with rfl | hc
        · exact .inl ((seen_mark hid).mpr (.inl rfl))
        · exact .inr (List.mem_append_right _ hc)

/-- With nothing left to do all that has been looked at is resolved for good. -/
theorem Walk.resolved (w : s.WF) (h : Walk s [] seen) {n : Node} (hn : s.HasNode n)
    (hs : Seen seen n) : n.Resolved s.slots := by
  intro m hm
  have hseen : s.HasNode m ∧ Seen seen m := by
    induction hm with
    | refl => exact ⟨hn, hs⟩
    | tail _ hc ih => exact ⟨w.hasNode_child ih.1 hc, by simpa using h.closed _ ih.1 ih.2 _ hc⟩
  exact h.fine m hseen.1 hseen.2

/-- The moves that are enough for the nodes to do and those not looked at yet. -/
def cost (todo : List Node) (seen : Array Bool) : Nat := todo.length + 2 * seen.count false

theorem cost_look (w : s.WF) (h : Walk s (node :: todo) seen) (hs : ¬ Seen seen node)
    (hf : cost (node :: todo) seen ≤ fuel + 1) :
    cost ((node.children s.slots).reverse ++ todo) (seen.setIfInBounds node.id true) ≤ fuel := by
  have hid : node.id < seen.size := h.size ▸ w.id_lt (h.nodes node List.mem_cons_self)
  have hcount := count_mark hs hid
  have hlen := node.length_children_le s.slots
  simp only [cost, List.length_cons, List.length_append, List.length_reverse] at hf ⊢
  omega

/-- **The search comes to its end**: within the moves that are enough all is looked at, or an
unresolved injection point is found. -/
theorem Walk.search_ends (w : s.WF) (h : Walk s todo seen) (hf : cost todo seen ≤ fuel) :
    search s.slots fuel todo seen ≠ .unfinished := by
  induction fuel generalizing todo seen with
  | zero =>
    obtain rfl : todo = [] := by
      simp only [cost] at hf
      exact List.eq_nil_of_length_eq_zero (by omega)
    simp [search]
  | succ fuel ih =>
    cases todo with
    | nil => simp [search]
    | cons node todo =>
      by_cases hseen : Seen seen node
      · rw [search_of_seen hseen]
        exact ih (h.skip hseen) (by simp only [cost, List.length_cons] at hf ⊢; omega)
      · by_cases hu : node.IsUnresolved s.slots
        · obtain ⟨base, -, hfound⟩ := search_of_unresolved fuel todo hseen hu
          rw [hfound]
          exact nofun
        · rw [search_of_fresh hseen hu]
          exact ih (h.look w hu) (cost_look w h hseen hf)

/-- A search that has come to its end without finding anything leaves nothing out. -/
theorem Walk.resolved_of_search (w : s.WF) (h : Walk s todo seen)
    (hend : search s.slots fuel todo seen = .resolved) :
    ∀ n, s.HasNode n → Seen seen n ∨ n ∈ todo → n.Resolved s.slots := by
  induction fuel generalizing todo seen with
  | zero =>
    intro n hn hs
    cases todo with
    | nil => exact h.resolved w hn (by simpa using hs)
    | cons node todo => simp [search] at hend
  | succ fuel ih =>
    intro n hn hs
    cases todo with
    | nil => exact h.resolved w hn (by simpa using hs)
    | cons node todo =>
      by_cases hseen : Seen seen node
      · rw [search_of_seen hseen] at hend
        refine ih (h.skip hseen) hend n hn ?_
        rcases hs with hs | hs
        · exact .inl hs
        · rcases List.mem_cons.mp hs with rfl | hs
          · exact .inl hseen
          · exact .inr hs
      · by_cases hu : node.IsUnresolved s.slots
        · obtain ⟨base, -, hfound⟩ := search_of_unresolved fuel todo hseen hu
          rw [hend] at hfound
          cases hfound
        · rw [search_of_fresh hseen hu] at hend
          have hid : node.id < seen.size := h.size ▸ w.id_lt (h.nodes node List.mem_cons_self)
          refine ih (h.look w hu) hend n hn ?_
          rcases hs with hs | hs
          · exact .inl ((seen_mark hid).mpr (.inr hs))
          · rcases List.mem_cons.mp hs with rfl | hs
            · exact .inl ((seen_mark hid).mpr (.inl rfl))
            · exact .inr (List.mem_append_right _ hs)

theorem Walk.start {n : Node} (hn : s.HasNode n) :
    Walk s [n] (Array.replicate s.rules.size false) := by
  have unseen (m : Node) : ¬ Seen (Array.replicate s.rules.size false) m := by
    unfold Seen
    rw [Array.getElem?_replicate]
    split <;> simp
  refine ⟨fun m hm => ?_, Array.size_replicate, fun m _ hs => absurd hs (unseen m),
    fun m _ hs => absurd hs (unseen m)⟩
  exact List.mem_singleton.mp hm ▸ hn

theorem cost_start (n : Node) (size : Nat) :
    cost [n] (Array.replicate size false) = 2 * size + 1 := by
  simp [cost]
  omega

theorem WF.verdict_ne_unfinished {n : Node} (w : s.WF) (hn : s.HasNode n) :
    s.verdict n ≠ .unfinished :=
  (Walk.start hn).search_ends w (Nat.le_of_eq (cost_start n _))

/-- **The search is right**: its verdict is that all is resolved exactly if the node is. -/
theorem WF.verdict_eq_resolved_iff {n : Node} (w : s.WF) (hn : s.HasNode n) :
    s.verdict n = .resolved ↔ n.Resolved s.slots := by
  constructor
  · intro h
    exact (Walk.start hn).resolved_of_search w h n hn (by simp)
  · intro h
    cases hv : s.verdict n with
    | resolved => rfl
    | unfinished => exact absurd hv (w.verdict_ne_unfinished hn)
    | unresolved base =>
      obtain ⟨n', hn', m, hm, hu, -⟩ := exists_of_search_unresolved hv
      rw [List.mem_singleton.mp hn'] at hm
      exact absurd hu (h m hm)

/-- What it finds has a label, so the complaint about it can be written. -/
theorem WF.label_of_unresolved {n base : Node} (w : s.WF) (hn : s.HasNode n)
    (h : s.verdict n = .unresolved base) : ∃ label, base.label = .ok label := by
  obtain ⟨n', hn', m, hm, -, hb⟩ := exists_of_search_unresolved h
  rw [List.mem_singleton.mp hn'] at hm
  obtain ⟨r, hr, rfl⟩ := w.hasNode_of_reaches hn (hm.part hb)
  exact w.labelled r hr

/-! ### The verdict is kept -/

/-- A rule that has passed is resolved. -/
def PassedResolved (s : Session) : Prop :=
  ∀ r ∈ s.rules, s.hasPassed r = true → r.node.Resolved s.slots

theorem hasPassed_markPassed {r r' : Rule} (h : (s.markPassed r).hasPassed r' = true) :
    r'.id = r.id ∨ s.hasPassed r' = true := by
  unfold hasPassed markPassed at h
  rw [Array.getElem?_setIfInBounds] at h
  split at h
  · rename_i he
    exact .inl he.symm
  · exact .inr h

theorem WF.eq_of_rule_id_eq {r r' : Rule} (w : s.WF) (hr : r ∈ s.rules) (hr' : r' ∈ s.rules)
    (h : r.id = r'.id) : r = r' := by
  obtain ⟨i, hi, rfl⟩ := Array.mem_iff_getElem.mp hr
  obtain ⟨j, hj, rfl⟩ := Array.mem_iff_getElem.mp hr'
  have hij : i = j := by
    rw [← (w.id_eq i _ (Array.getElem?_eq_getElem hi)).1,
      ← (w.id_eq j _ (Array.getElem?_eq_getElem hj)).1, h]
  subst hij
  rfl

/-- Every change keeps it: a rule just issued has not passed, and a slot that is filled adds
nothing below a rule that has. -/
theorem PassedResolved.change (w : s.WF) (hp : s.PassedResolved) (h : s.Change s') :
    s'.PassedResolved := by
  have hslots := h.filledIn
  cases h with
  | @issue node chain hm =>
    intro r hr hpass
    unfold hasPassed at hpass
    simp only [Array.getElem?_push] at hpass
    rcases Array.mem_push.mp hr with hr | rfl
    · refine hp r hr ?_
      split at hpass
      · cases hpass
      · exact hpass
    · rw [if_pos w.passed_size.symm] at hpass
      cases hpass
  | openChain => exact fun r hr hpass => (hp r hr hpass).mono hslots
  | fill _ _ => exact fun r hr hpass => (hp r hr hpass).mono hslots
  | @pass r hr hverdict =>
    intro r' hr' hpass
    rcases hasPassed_markPassed hpass with he | hpass
    · rw [w.eq_of_rule_id_eq hr' hr he]
      exact (w.verdict_eq_resolved_iff ⟨r, hr, rfl⟩).mp hverdict
    · exact hp r' hr' hpass
  | write => exact hp

theorem PassedResolved.changes (w : s.WF) (hp : s.PassedResolved) (h : s.Changes s') :
    s'.PassedResolved := by
  induction h with
  | refl => exact hp
  | tail hs hc ih => exact ih.change (w.changes hs) hc

theorem Reachable.passedResolved (h : s.Reachable) : s.PassedResolved := by
  obtain ⟨j, h⟩ := h
  have hnew : (Session.new j).PassedResolved := fun r hr => by simp [Session.new] at hr
  exact hnew.changes (WF.new j) (h.changes (WF.new j))

/-! ### The check -/

/-- The check passes exactly the rules that are resolved, whatever it has kept of earlier
ones; on the others it complains. -/
theorem WF.check_fst {r : Rule} (w : s.WF) (hp : s.PassedResolved) (hr : r ∈ s.rules) :
    r.node.Resolved s.slots ∧ (Build.check r s).1 = .ok () ∨
      ¬ r.node.Resolved s.slots ∧
        ∃ label, (Build.check r s).1 = .error (.grammar (.unresolved label)) := by
  have hn : s.HasNode r.node := ⟨r, hr, rfl⟩
  have hiff := w.verdict_eq_resolved_iff hn
  rw [Build.check_eq]
  by_cases hpass : s.hasPassed r = true
  · rw [if_pos hpass]
    exact .inl ⟨hp r hr hpass, rfl⟩
  · rw [if_neg hpass]
    cases hv : s.verdict r.node with
    | resolved => exact .inl ⟨hiff.mp hv, rfl⟩
    | unfinished => exact absurd hv (w.verdict_ne_unfinished hn)
    | unresolved base =>
      obtain ⟨label, hl⟩ := w.label_of_unresolved hn hv
      refine .inr ⟨fun h => ?_, label, by simp [hl]⟩
      rw [hiff.mpr h] at hv
      cases hv

theorem not_resolved_iff {n : Node} :
    ¬ n.Resolved slots ↔ ∃ m, n.Reaches slots m ∧ m.IsUnresolved slots := by
  unfold Node.Resolved
  constructor
  · intro h
    refine Classical.byContradiction fun hne => ?_
    exact h fun m hm hu => hne ⟨m, hm, hu⟩
  · rintro ⟨m, hm, hu⟩ h
    exact h m hm hu

/-- A run of a resolved node never comes to an injection point with an empty slot. -/
theorem not_atUnresolved {n : Node} {text : List Char} {pos : Integral} {st : Machine.State}
    (h : n.Resolved slots) (hon : Machine.Onward slots text (.visit n pos []) st) :
    ¬ st.AtUnresolved slots := by
  have hw := Machine.isWithin_of_onward hon
  unfold Machine.State.AtUnresolved
  split
  · rename_i slot stack
    intro ht
    obtain ⟨id, base, hb⟩ := hw (.spliceBase slot) List.mem_cons_self
    exact h _ hb ⟨id, base, slot, rfl, ht⟩
  · exact id

/-- So the fault of an unresolved injection point can only be an action's own. -/
theorem evaluate_raised_reachedUnresolved {n : Node} {text : List Char} {pos : Integral}
    (h : n.Resolved s.slots)
    (hf : (s.evaluate fuel n text pos).1 = .raised (.grammar .reachedUnresolved)) :
    ∃ st action, Machine.Onward s.slots text (.visit n pos []) st ∧
      st.AtFaultingAction (.grammar .reachedUnresolved) action := by
  rcases evaluateIn_raised hf with hf | ⟨st, hon, hstep⟩
  · cases hf
  · rcases Machine.step_raised hstep with hf | hf | ⟨action, ha⟩ | ⟨hu, -⟩
    · cases hf
    · cases hf
    · exact ⟨st, action, hon, ha⟩
    · exact absurd hu (not_atUnresolved h hon)

/-- **The check is sound and complete, and its verdict is never out of date.** In every
session that calls lead to, and for every rule of it: the search comes to its end within
its moves, and with more of them to the same verdict; the check passes exactly if the verdict
of a fresh search is that all is resolved, and complains exactly if an unresolved injection
point can be reached. Once it has passed, no run of the
rule's node, now or after any further calls, comes to an injection point with an empty
slot; where a run ends with the fault that stands for this, an action has raised it. -/
theorem check_verdict (s : Session) (hs : s.Reachable) (r : Rule) (hr : r ∈ s.rules) :
    (s.verdict r.node ≠ .unfinished ∧
        ∀ extra, search s.slots (2 * s.rules.size + 1 + extra) [r.node]
          (Array.replicate s.rules.size false) = s.verdict r.node) ∧
      ((Build.check r s).1 = .ok () ↔ s.verdict r.node = .resolved) ∧
      ((Build.check r s).1 = .ok () ↔
        ¬ ∃ n, r.node.Reaches s.slots n ∧ n.IsUnresolved s.slots) ∧
      ((∃ cause, (Build.check r s).1 = .error (.grammar cause)) ↔
        ∃ n, r.node.Reaches s.slots n ∧ n.IsUnresolved s.slots) ∧
      ((Build.check r s).1 = .ok () → ∀ s', (Build.check r s).2.Later s' →
        ∀ (text : List Char) (pos : Integral),
          (∀ st, Machine.Onward s'.slots text (.visit r.node pos []) st →
            ¬ st.AtUnresolved s'.slots) ∧
          ∀ fuel, (s'.evaluate fuel r.node text pos).1 = .raised (.grammar .reachedUnresolved) →
            ∃ st action, Machine.Onward s'.slots text (.visit r.node pos []) st ∧
              st.AtFaultingAction (.grammar .reachedUnresolved) action) := by
  have w := hs.wf
  have hn : s.HasNode r.node := ⟨r, hr, rfl⟩
  have hiff := w.verdict_eq_resolved_iff hn
  have hends := w.verdict_ne_unfinished hn
  have hover : s.verdict r.node ≠ .unfinished ∧
      ∀ extra, search s.slots (2 * s.rules.size + 1 + extra) [r.node]
        (Array.replicate s.rules.size false) = s.verdict r.node :=
    ⟨hends, search_add hends⟩
  have hchanges := (Build.check_does hr).1
  rcases w.check_fst hs.passedResolved hr with ⟨hres, hok⟩ | ⟨hres, label, herr⟩
  · have hno : ¬ ∃ n, r.node.Reaches s.slots n ∧ n.IsUnresolved s.slots :=
      fun h => not_resolved_iff.mpr h hres
    refine ⟨hover, by simp [hok, hiff.mpr hres], by simp [hok, hno], by simp [hok, hno], ?_⟩
    intro _ s' hlater text pos
    have hres' : r.node.Resolved s'.slots :=
      (hres.mono hchanges.filledIn).mono (hlater.changes (w.changes hchanges)).filledIn
    exact ⟨fun st => not_atUnresolved hres', fun fuel => evaluate_raised_reachedUnresolved hres'⟩
  · have hyes := not_resolved_iff.mp hres
    have hnot : s.verdict r.node ≠ .resolved := fun h => hres (hiff.mp h)
    exact ⟨hover, by simp [herr, hnot], by simp [herr, hyes], by simp [herr, hyes],
      by simp [herr]⟩

/-- A rule that is injected into itself after nothing: it passes, and though it runs for ever
it never comes to an empty slot. -/
theorem check_verdict_selfInjected :
    ∃ (s : Session) (r : Rule), s.Reachable ∧ r ∈ s.rules ∧ (Build.check r s).1 = .ok () ∧
      ∀ s', (Build.check r s).2.Later s' → ∀ text pos st,
        Machine.Onward s'.slots text (.visit r.node pos []) st → ¬ st.AtUnresolved s'.slots := by
  let anchor : Rule := ⟨0, .empty 0, 0⟩
  let point : Rule := ⟨1, .splice 1 (.empty 0) 0, 0⟩
  let s₀ := Session.new (Journal.new false "WARNING")
  let s₁ := Call.empty.perform s₀
  let s₂ := (Call.markInjection anchor).perform s₁
  let s₃ := (Call.inject point).perform s₂
  have h₁ : anchor ∈ s₁.rules := Array.mem_push_self
  have h₂ : point ∈ s₂.rules := Array.mem_push_self
  have hreach : s₃.Reachable :=
    ⟨_, .call (.inject point) (.call (.markInjection anchor) (.call .empty .refl trivial) h₁) h₂⟩
  have h₃ : point ∈ s₃.rules := h₂
  have hverdict : s₃.verdict point.node = .resolved := by
    have hslots : s₃.slots = #[some point.node] := rfl
    have hsize : s₃.rules.size = 2 := rfl
    rw [verdict, hslots, hsize]
    rfl
  have hok : (Build.check point s₃).1 = .ok () := by
    rw [Build.check_eq, hverdict]
    split <;> rfl
  -- what the calls have made of the session is not looked at again
  clear_value s₃
  refine ⟨s₃, point, hreach, h₃, hok, fun s' hlater text pos => ?_⟩
  exact ((check_verdict s₃ hreach point h₃).2.2.2.2 hok s' hlater text pos).1

end Session

end LeafGrammar
