import LeafGrammar.Proofs.Engine.Showing
import LeafGrammar.Proofs.Rule.Graph
import LeafGrammar.Session.Run
import Mathlib.Order.Defs.Unbundled

/-!
# What calls do to a session

Whatever is called on the rules of a session, five things can happen to it: a rule is
issued, a chain is opened, an empty slot is filled, a rule passes the check, something
is written to the journal (`Session.Change`). Every call is a sequence of these
(`Call.changes`), so what all of them keep is kept by every call, whether it gives a
rule or a fault.

`Session.WF` is such an invariant: rule number `i` stands at index `i` and its node
has the number `i`; every node is made of nodes of earlier rules, so a cycle of the
graph goes through a slot, and the first of them is on the same chain; a node that is made
of none starts its chain; an injection point has the slot of its rule's chain; a slot holds
the node of a rule on that chain.
-/

namespace LeafGrammar

open Relation

/-! ### Running building steps -/

namespace Build

variable {α β : Type}

theorem run_bind (b : Build α) (f : α → Build β) (s : Session) :
    (b >>= f) s =
      match b s with
      | (.ok a, s') => f a s'
      | (.error e, s') => (.error e, s') := by
  show ExceptT.bind b f s = _
  unfold ExceptT.bind ExceptT.mk ExceptT.bindCont
  show StateT.bind b _ s = _
  unfold StateT.bind
  show (match b s with | (a, s') => _) = _
  rcases b s with ⟨_ | a, s'⟩ <;> rfl

theorem run_bind_ok {b : Build α} {s s' : Session} {a : α} (h : b s = (.ok a, s'))
    (f : α → Build β) : (b >>= f) s = f a s' := by
  rw [run_bind, h]

theorem run_lift (x : Except Fault α) (s : Session) : (liftM x : Build α) s = (x, s) := by
  cases x <;> rfl

theorem check_eq (r : Rule) (s : Session) :
    check r s =
      if s.hasPassed r then (.ok (), s)
      else
        match s.verdict r.node with
        | .unresolved base =>
          match base.label with
          | .ok label => (.error (.grammar (.unresolved label)), s)
          | .error f => (.error f, s)
        | .resolved => (.ok (), s.markPassed r)
        | .unfinished => (.ok (), s) := by
  unfold check
  rw [run_bind_ok (show (get : Build Session) s = (.ok s, s) from rfl)]
  cases s.hasPassed r with
  | true => rfl
  | false =>
    cases s.verdict r.node with
    | unresolved base =>
      simp only [Bool.false_eq_true, if_false]
      cases base.label with
      | ok label => rfl
      | error f => rfl
    | resolved => rfl
    | unfinished => rfl

theorem inject_eq (r : Rule) (s : Session) :
    inject r s =
      match s.slots.target? r.chain with
      | some _ => (.error (.grammar .slotTaken), s)
      | none => (.ok r, { s with slots := s.slots.setIfInBounds r.chain (some r.node) }) := by
  unfold inject
  rw [run_bind_ok (show (get : Build Session) s = (.ok s, s) from rfl)]
  cases s.slots.target? r.chain <;> rfl

/-- The check changes nothing but the verdicts. -/
theorem check_snd (r : Rule) (s : Session) :
    ∃ passed, (check r s).2 = { s with passed := passed } := by
  rw [check_eq]
  split
  · exact ⟨s.passed, rfl⟩
  · split
    · split <;> exact ⟨s.passed, rfl⟩
    · exact ⟨s.passed.setIfInBounds r.id true, rfl⟩
    · exact ⟨s.passed, rfl⟩

end Build

/-! ### Changes -/

namespace Session

/-- A node that a rule may be issued for on a chain. It is made of nodes that are there
already, the first of them on the chain; a node that is made of none starts the chain. An
injection point has the slot of the chain. -/
structure MayIssue (s : Session) (node : Node) (chain : SlotId) : Prop where
  id_eq : node.id = s.rules.size
  parts : ∀ c ∈ node.parts, ∃ r ∈ s.rules, r.node = c
  receiver : ∀ c ∈ node.parts.head?, ∃ r ∈ s.rules, r.node = c ∧ r.chain = chain
  starts : node.parts = [] → ∀ r ∈ s.rules, r.chain ≠ chain
  chain_lt : chain < s.slots.size
  slot_eq : ∀ slot, node.slot? = some slot → slot = chain
  labelled : ∃ label, node.label = .ok label

/-- What can happen to a session. -/
inductive Change : Session → Session → Prop where
  /-- A rule is issued. -/
  | issue {s : Session} {node : Node} {chain : SlotId} (h : s.MayIssue node chain) :
      Change s { s with
        rules := s.rules.push ⟨s.rules.size, node, chain⟩, passed := s.passed.push false }
  /-- A chain is opened. -/
  | openChain {s : Session} : Change s { s with slots := s.slots.push none }
  /-- The slot of a rule's chain is filled with the rule's node. -/
  | fill {s : Session} {r : Rule} (hr : r ∈ s.rules) (h : s.slots.target? r.chain = none) :
      Change s { s with slots := s.slots.setIfInBounds r.chain (some r.node) }
  /-- A rule passes the check. -/
  | pass {s : Session} {r : Rule} (hr : r ∈ s.rules) (h : s.verdict r.node = .resolved) :
      Change s (s.markPassed r)
  /-- The journal goes on: lines are added to it. -/
  | write {s : Session} {written : List Entry} :
      Change s { s with journal := { s.journal with written := written } }

/-- Any number of changes. -/
def Changes : Session → Session → Prop := ReflTransGen Change

variable {s s' : Session}

theorem Changes.refl (s : Session) : s.Changes s := ReflTransGen.refl

theorem Changes.trans {s'' : Session} (h : s.Changes s') (h' : s'.Changes s'') : s.Changes s'' :=
  ReflTransGen.trans h h'

instance : IsPreorder Session Changes where
  refl := Changes.refl
  trans _ _ _ := Changes.trans

theorem Change.changes (h : s.Change s') : s.Changes s' := ReflTransGen.single h

/-- A rule that was issued stays. -/
theorem Change.mem (h : s.Change s') {r : Rule} (hr : r ∈ s.rules) : r ∈ s'.rules := by
  cases h with
  | issue _ => exact Array.mem_push_of_mem _ hr
  | _ => exact hr

theorem Changes.mem (h : s.Changes s') {r : Rule} (hr : r ∈ s.rules) : r ∈ s'.rules := by
  induction h with
  | refl => exact hr
  | tail _ hc ih => exact hc.mem ih

/-- Of the journal only the lines change. -/
theorem Changes.journal_eq (h : s.Changes s') :
    ∃ written, s'.journal = { s.journal with written := written } := by
  induction h with
  | refl => exact ⟨s.journal.written, rfl⟩
  | tail _ hc ih =>
    obtain ⟨written, ih⟩ := ih
    cases hc with
    | @write written' => exact ⟨written', by rw [ih]⟩
    | _ => exact ⟨written, ih⟩

end Session

namespace Slots

theorem target?_push_none (slots : Slots) (slot : SlotId) :
    Slots.target? (slots.push none) slot = slots.target? slot := by
  unfold target?
  rw [Array.getElem?_push]
  split
  · rename_i h
    subst h
    rw [Array.getElem?_size]
    rfl
  · rfl

theorem target?_setIfInBounds (slots : Slots) (i slot : SlotId) (n : Node) :
    Slots.target? (slots.setIfInBounds i (some n)) slot =
      if slot = i ∧ i < slots.size then some n else slots.target? slot := by
  unfold target?
  rw [Array.getElem?_setIfInBounds]
  by_cases h : i = slot
  · subst h
    by_cases hi : i < slots.size <;> simp [hi]
  · rw [if_neg h, if_neg (fun h' => h h'.1.symm)]

end Slots

namespace Session

variable {s s' : Session}

/-- A slot that is filled stays as it is. -/
theorem Change.filledIn (h : s.Change s') : s.slots.FilledIn s'.slots := by
  cases h with
  | openChain =>
    intro slot target ht
    rw [Slots.target?_push_none]
    exact ht
  | @fill r hr he =>
    intro slot target ht
    rw [Slots.target?_setIfInBounds, if_neg]
    · exact ht
    · rintro ⟨rfl, -⟩
      rw [he] at ht
      cases ht
  | _ => exact .refl _

theorem Changes.filledIn (h : s.Changes s') : s.slots.FilledIn s'.slots := by
  induction h with
  | refl => exact .refl _
  | tail _ hc ih => exact ih.trans hc.filledIn

/-! ### The invariant of the heap -/

/-- The rules, nodes and slots of a session fit together. -/
structure WF (s : Session) : Prop where
  /-- Rule number `i` stands at index `i`, and so does its node. -/
  id_eq : ∀ (i : Nat) (r : Rule), s.rules[i]? = some r → r.id = i ∧ r.node.id = i
  /-- A node is made of nodes of earlier rules. -/
  parts : ∀ r ∈ s.rules, ∀ c ∈ r.node.parts, ∃ r' ∈ s.rules, r'.node = c ∧ r'.id < r.id
  /-- The first of them is the node of a rule on the same chain. -/
  receiver : ∀ r ∈ s.rules, ∀ c ∈ r.node.parts.head?, ∃ q ∈ s.rules, q.node = c ∧ q.chain = r.chain
  /-- A rule whose node is made of none is the first on its chain. -/
  starts : ∀ r ∈ s.rules, r.node.parts = [] → ∀ q ∈ s.rules, q.id < r.id → q.chain ≠ r.chain
  chain_lt : ∀ r ∈ s.rules, r.chain < s.slots.size
  /-- An injection point has the slot of its rule's chain. -/
  slot_eq : ∀ r ∈ s.rules, ∀ slot, r.node.slot? = some slot → slot = r.chain
  /-- A slot holds the node of a rule on its chain. -/
  target : ∀ slot n, s.slots.target? slot = some n → ∃ r ∈ s.rules, r.node = n ∧ r.chain = slot
  labelled : ∀ r ∈ s.rules, ∃ label, r.node.label = .ok label
  passed_size : s.passed.size = s.rules.size

theorem WF.new (j : Journal) : (Session.new j).WF where
  id_eq i r h := by simp [Session.new] at h
  parts r h := by simp [Session.new] at h
  receiver r h := by simp [Session.new] at h
  starts r h := by simp [Session.new] at h
  chain_lt r h := by simp [Session.new] at h
  slot_eq r h := by simp [Session.new] at h
  target slot n h := by simp [Session.new, Slots.target?] at h
  labelled r h := by simp [Session.new] at h
  passed_size := rfl

theorem WF.rule_id_lt {r : Rule} (w : s.WF) (hr : r ∈ s.rules) : r.id < s.rules.size := by
  obtain ⟨i, hi, rfl⟩ := Array.mem_iff_getElem.mp hr
  rw [(w.id_eq i _ (Array.getElem?_eq_getElem hi)).1]
  exact hi

theorem WF.issue {node : Node} {chain : SlotId} (w : s.WF) (h : s.MayIssue node chain) :
    WF { s with
      rules := s.rules.push ⟨s.rules.size, node, chain⟩, passed := s.passed.push false } where
  id_eq i r hr := by
    simp only [Array.getElem?_push] at hr
    split at hr
    · rename_i hi
      cases hr
      exact ⟨hi.symm, h.id_eq.trans hi.symm⟩
    · exact w.id_eq i r hr
  parts r hr c hc := by
    rcases Array.mem_push.mp hr with hr | rfl
    · obtain ⟨r', hr', hn, hlt⟩ := w.parts r hr c hc
      exact ⟨r', Array.mem_push_of_mem _ hr', hn, hlt⟩
    · obtain ⟨r', hr', hn⟩ := h.parts c hc
      exact ⟨_, Array.mem_push_of_mem _ hr', hn, w.rule_id_lt hr'⟩
  receiver r hr c hc := by
    rcases Array.mem_push.mp hr with hr | rfl
    · obtain ⟨q, hq, hnode⟩ := w.receiver r hr c hc
      exact ⟨q, Array.mem_push_of_mem _ hq, hnode⟩
    · obtain ⟨q, hq, hnode⟩ := h.receiver c hc
      exact ⟨q, Array.mem_push_of_mem _ hq, hnode⟩
  starts r hr hparts q hq hlt := by
    rcases Array.mem_push.mp hr with hr | rfl
    · rcases Array.mem_push.mp hq with hq | rfl
      · exact w.starts r hr hparts q hq hlt
      · exact absurd hlt (Nat.not_lt_of_gt (w.rule_id_lt hr))
    · rcases Array.mem_push.mp hq with hq | rfl
      · exact h.starts hparts q hq
      · exact absurd hlt (Nat.lt_irrefl _)
  chain_lt r hr := by
    rcases Array.mem_push.mp hr with hr | rfl
    · exact w.chain_lt r hr
    · exact h.chain_lt
  slot_eq r hr slot hs := by
    rcases Array.mem_push.mp hr with hr | rfl
    · exact w.slot_eq r hr slot hs
    · exact h.slot_eq slot hs
  target slot n ht := by
    obtain ⟨r, hr, hn⟩ := w.target slot n ht
    exact ⟨r, Array.mem_push_of_mem _ hr, hn⟩
  labelled r hr := by
    rcases Array.mem_push.mp hr with hr | rfl
    · exact w.labelled r hr
    · exact h.labelled
  passed_size := by simp [w.passed_size]

/-- Every change keeps the invariant. -/
theorem WF.change (w : s.WF) (h : s.Change s') : s'.WF := by
  cases h with
  | issue h => exact w.issue h
  | openChain =>
    refine { w with chain_lt := fun r hr => ?_, target := fun slot n ht => ?_ }
    · rw [Array.size_push]
      exact Nat.lt_succ_of_lt (w.chain_lt r hr)
    · rw [Slots.target?_push_none] at ht
      exact w.target slot n ht
  | @fill r hr he =>
    refine { w with chain_lt := fun r hr => ?_, target := fun slot n ht => ?_ }
    · simpa using w.chain_lt r hr
    · rw [Slots.target?_setIfInBounds] at ht
      split at ht
      · rename_i h
        cases ht
        exact ⟨r, hr, rfl, h.1.symm⟩
      · exact w.target slot n ht
  | pass hr h => exact { w with passed_size := by simpa [markPassed] using w.passed_size }
  | write => exact { w with }

theorem WF.changes (w : s.WF) (h : s.Changes s') : s'.WF := by
  induction h with
  | refl => exact w
  | tail _ hc ih => exact ih.change hc

end Session

/-! ### Building steps make changes -/

/-- The rules that an operand stands for are rules of the session. -/
def Operand.IsOn (s : Session) : Operand → Prop
  | .rule r => r ∈ s.rules
  | .value _ => True

theorem Operand.IsOn.changes {s s' : Session} {o : Operand} (h : o.IsOn s) (hs : s.Changes s') :
    o.IsOn s' := by
  cases o with
  | rule r => exact hs.mem h
  | value v => trivial

namespace Build

variable {α β : Type} {s : Session}

/-- From `s` the step leads to a session that stands in the relation to `s`; where it gives
something, `Q` holds of that and of the session it leaves. -/
def Leads (rel : Session → Session → Prop) (b : Build α) (s : Session)
    (Q : α → Session → Prop) : Prop :=
  rel s (b s).2 ∧ ∀ a, (b s).1 = .ok a → Q a (b s).2

namespace Leads

variable {rel : Session → Session → Prop} [IsPreorder Session rel]

theorem pure {a : α} {Q : α → Session → Prop} (h : Q a s) : Leads rel (Pure.pure a) s Q := by
  refine ⟨refl_of rel s, ?_⟩
  rintro _ ⟨⟩
  exact h

theorem fault (f : Fault) {Q : α → Session → Prop} : Leads rel (throw f) s Q := by
  refine ⟨refl_of rel s, ?_⟩
  rintro a ⟨⟩

theorem lift (x : Except Fault α) :
    Leads rel (liftM x : Build α) s fun a s' => x = .ok a ∧ s' = s :=
  ⟨refl_of rel s, fun _ h => ⟨h, rfl⟩⟩

theorem bind {b : Build α} {f : α → Build β} {Q : α → Session → Prop} {R : β → Session → Prop}
    (hb : Leads rel b s Q) (hf : ∀ a s', rel s s' → Q a s' → Leads rel (f a) s' R) :
    Leads rel (b >>= f) s R := by
  obtain ⟨hc, hQ⟩ := hb
  unfold Leads
  rw [run_bind]
  rcases h : b s with ⟨_ | a, s'⟩
  · rw [h] at hc
    exact ⟨hc, by rintro _ ⟨⟩⟩
  · rw [h] at hc hQ
    obtain ⟨hc', hR⟩ := hf a s' hc (hQ a rfl)
    exact ⟨trans_of rel hc hc', hR⟩

omit [IsPreorder Session rel] in
theorem mono {b : Build α} {Q R : α → Session → Prop} (hb : Leads rel b s Q)
    (h : ∀ a s', rel s s' → Q a s' → R a s') : Leads rel b s R :=
  ⟨hb.1, fun a ha => h _ _ hb.1 (hb.2 a ha)⟩

end Leads

/-- The step only makes changes. -/
abbrev Does (b : Build α) (s : Session) (Q : α → Session → Prop) : Prop :=
  Leads Session.Changes b s Q

/-- What a step that makes a rule gives: a rule of the session. -/
def GivesRule (r : Rule) (s : Session) : Prop := r ∈ s.rules

theorem issue_does {node : NodeId → Node} {chain : SlotId}
    (h : s.MayIssue (node s.rules.size) chain) : (issue node chain).Does s GivesRule := by
  refine ⟨(Session.Change.issue h).changes, ?_⟩
  rintro r ⟨⟩
  exact Array.mem_push_self

theorem issueFresh_does {node : NodeId → Node} (w : s.WF) (hid : ∀ i, (node i).id = i)
    (hparts : ∀ i, (node i).parts = []) (hslot : ∀ i, (node i).slot? = none)
    (hlabel : ∀ i, ∃ label, (node i).label = .ok label) : (issueFresh node).Does s GivesRule := by
  have hopen := Session.Change.openChain (s := s)
  have hissue : (issue node s.slots.size).Does { s with slots := s.slots.push none } GivesRule := by
    refine issue_does ⟨hid _, ?_, ?_, ?_, ?_, ?_, hlabel _⟩
    · simp [hparts]
    · simp [hparts]
    · intro _ r hr
      exact Nat.ne_of_lt (w.chain_lt r hr)
    · rw [Array.size_push]
      exact Nat.lt_succ_self _
    · simp [hslot]
  exact ⟨hopen.changes.trans hissue.1, hissue.2⟩

theorem derive_does {r : Rule} {node : NodeId → Node} (w : s.WF) (hr : r ∈ s.rules)
    (hid : ∀ i, (node i).id = i) (hhead : ∀ i, (node i).parts.head? = some r.node)
    (hparts : ∀ i, ∀ c ∈ (node i).parts, ∃ r ∈ s.rules, r.node = c)
    (hslot : ∀ i slot, (node i).slot? = some slot → slot = r.chain)
    (hlabel : ∀ i, ∃ label, (node i).label = .ok label) : (derive r node).Does s GivesRule := by
  refine issue_does ⟨hid _, hparts _, ?_, ?_, w.chain_lt r hr, hslot _, hlabel _⟩
  · intro c hc
    rw [hhead] at hc
    cases hc
    exact ⟨r, hr, rfl, rfl⟩
  · intro hnil
    have hsome := hhead s.rules.size
    rw [hnil] at hsome
    cases hsome

theorem leafFor_does (w : s.WF) (p : Pattern) : (leafFor p).Does s GivesRule :=
  issueFresh_does w (fun _ => rfl) (fun _ => rfl) (fun _ => rfl) fun _ => ⟨_, rfl⟩

theorem leaf_does (w : s.WF) (source : String) (flags : Pattern.Flags) :
    (leaf source flags).Does s GivesRule := by
  unfold leaf leafRead
  split
  · exact leafFor_does w _
  · exact .fault _
  · exact .fault _

theorem leafOf_does (w : s.WF) (v : Value) (flags : Pattern.Flags) :
    (leafOf v flags).Does s GivesRule := by
  unfold leafOf
  split
  · exact leaf_does w _ _
  · exact .fault _

theorem empty_does (w : s.WF) : empty.Does s GivesRule :=
  issueFresh_does w (fun _ => rfl) (fun _ => rfl) (fun _ => rfl) fun _ => ⟨_, rfl⟩

theorem coerce_does {o : Operand} (w : s.WF) (ho : o.IsOn s) :
    (coerce o).Does s GivesRule := by
  unfold coerce
  split
  · exact .pure ho
  · exact leaf_does w _ _
  · exact .fault _

/-- A rule and an operand joined under a node that is no injection point. -/
theorem join_does {r : Rule} {o : Operand} {make : NodeId → Node → Node} (w : s.WF)
    (hr : r ∈ s.rules) (ho : o.IsOn s) (hid : ∀ i n, (make i n).id = i)
    (hparts : ∀ i n, (make i n).parts = [r.node, n]) (hslot : ∀ i n, (make i n).slot? = none)
    (hlabel : ∀ i n, ∃ label, (make i n).label = .ok label) :
    Does (do
      let second ← coerce o
      derive r (make · second.node)) s GivesRule := by
  refine (coerce_does w ho).bind fun second s' hc hsecond => ?_
  refine derive_does (w.changes hc) (hc.mem hr) (hid · _) ?_ ?_ ?_ (hlabel · _)
  · intro i
    rw [hparts, List.head?_cons]
  · intro i c hmem
    rw [hparts, List.mem_cons, List.mem_singleton] at hmem
    rcases hmem with rfl | rfl
    · exact ⟨r, hc.mem hr, rfl⟩
    · exact ⟨second, hsecond, rfl⟩
  · intro i slot hs
    rw [hslot] at hs
    cases hs

theorem andThen_does {r : Rule} {o : Operand} (w : s.WF) (hr : r ∈ s.rules) (ho : o.IsOn s) :
    (andThen r o).Does s GivesRule :=
  join_does w hr ho (fun _ _ => rfl) (fun _ _ => rfl) (fun _ _ => rfl) fun _ _ => ⟨_, rfl⟩

theorem orElse_does {r : Rule} {o : Operand} (w : s.WF) (hr : r ∈ s.rules) (ho : o.IsOn s) :
    (orElse r o).Does s GivesRule :=
  join_does w hr ho (fun _ _ => rfl) (fun _ _ => rfl) (fun _ _ => rfl) fun _ _ => ⟨_, rfl⟩

theorem both_does {a b : Operand} (w : s.WF) (ha : a.IsOn s) (hb : b.IsOn s) :
    (both a b).Does s GivesRule :=
  (coerce_does w ha).bind fun _ _ hc hr => andThen_does (w.changes hc) hr (hb.changes hc)

theorem either_does {a b : Operand} (w : s.WF) (ha : a.IsOn s) (hb : b.IsOn s) :
    (either a b).Does s GivesRule :=
  (coerce_does w ha).bind fun _ _ hc hr => orElse_does (w.changes hc) hr (hb.changes hc)

/-- The integral of a value that can be shown can be shown. -/
theorem shown_of_integral? {v : Value} {n : Integral} {shown : String} (hv : v.shown = .ok shown)
    (hn : v.integral? = some n) : ∃ text, n.shown = .ok text := by
  cases v with
  | int k =>
    cases hn
    rw [Value.shown] at hv
    exact ⟨shown, hv⟩
  | truth b =>
    cases hn
    exact ⟨_, rfl⟩
  | _ => cases hn

variable {rel : Session → Session → Prop} [IsPreorder Session rel]

theorem leastOf_leads (v : Value) :
    Leads rel (leastOf v) s fun n s' => s' = s ∧ ∃ text, n.shown = .ok text := by
  refine (Leads.lift v.shown).bind ?_
  rintro shown s' - ⟨hv, rfl⟩
  split
  · rename_i n hn
    split
    · exact .pure ⟨rfl, shown_of_integral? hv hn⟩
    · exact .fault _
  · exact .fault _

theorem mostOf_leads (least : Integral) (v : Value) :
    Leads rel (mostOf least v) s fun n s' => s' = s ∧ ∀ m ∈ n, ∃ text, m.shown = .ok text := by
  refine (Leads.lift least.shown).bind ?_
  rintro low s₁ - ⟨-, rfl⟩
  refine (Leads.lift v.shown).bind ?_
  rintro shown s₂ - ⟨hv, rfl⟩
  split
  · exact .pure ⟨rfl, by simp⟩
  · rename_i n hn _
    split
    · refine .pure ⟨rfl, ?_⟩
      rintro m ⟨⟩
      exact shown_of_integral? hv (by assumption)
    · exact .fault _
  · exact .fault _

theorem label_rep {id : NodeId} {child : Node} {least : Integral} {most : Option Integral}
    (hl : ∃ text, least.shown = .ok text) (hm : ∀ m ∈ most, ∃ text, m.shown = .ok text) :
    ∃ label, (Node.rep id child least most).label = .ok label := by
  obtain ⟨low, hl⟩ := hl
  cases most with
  | none => exact ⟨_, by simp only [Node.label, hl]; rfl⟩
  | some m =>
    obtain ⟨high, hm⟩ := hm m rfl
    exact ⟨_, by simp only [Node.label, hl, hm]; rfl⟩

theorem rep_does {r : Rule} (least most : Value) (w : s.WF) (hr : r ∈ s.rules) :
    (rep r least most).Does s GivesRule := by
  refine (leastOf_leads least).bind ?_
  rintro low s₁ - ⟨rfl, hl⟩
  refine (mostOf_leads low most).bind ?_
  rintro high s₂ - ⟨rfl, hm⟩
  refine derive_does w hr (fun _ => rfl) (fun _ => rfl) ?_ ?_ fun _ => label_rep hl hm
  · rintro i c hc
    exact ⟨r, hr, (List.mem_singleton.mp hc).symm⟩
  · rintro i slot ⟨⟩

theorem map_does {r : Rule} (f : Mapper) (w : s.WF) (hr : r ∈ s.rules) :
    (map r f).Does s GivesRule := by
  unfold map
  split
  · refine derive_does w hr (fun _ => rfl) (fun _ => rfl) ?_ ?_ fun _ => ⟨_, rfl⟩
    · rintro i c hc
      exact ⟨r, hr, (List.mem_singleton.mp hc).symm⟩
    · rintro i slot ⟨⟩
  · exact .fault _

theorem markInjection_does {r : Rule} (w : s.WF) (hr : r ∈ s.rules) :
    (markInjection r).Does s GivesRule := by
  refine derive_does w hr (fun _ => rfl) (fun _ => rfl) ?_ ?_ fun _ => ⟨_, rfl⟩
  · rintro i c hc
    exact ⟨r, hr, (List.mem_singleton.mp hc).symm⟩
  · rintro i slot ⟨⟩
    rfl

theorem inject_does {r : Rule} (hr : r ∈ s.rules) : (inject r).Does s GivesRule := by
  unfold Does Leads
  rw [inject_eq]
  cases ht : s.slots.target? r.chain with
  | some target => exact ⟨.refl s, by rintro _ ⟨⟩⟩
  | none =>
    refine ⟨(Session.Change.fill hr ht).changes, ?_⟩
    rintro _ ⟨⟩
    exact hr

theorem check_does {r : Rule} (hr : r ∈ s.rules) :
    (check r).Does s fun _ _ => True := by
  refine ⟨?_, fun _ _ => trivial⟩
  rw [check_eq]
  split
  · exact .refl s
  · split
    · split <;> exact .refl s
    · exact (Session.Change.pass hr (by assumption)).changes
    · exact .refl s

end Build

namespace Session

variable {s : Session}

theorem evaluate_changes (fuel : Nat) (node : Node) (text : List Char) (pos : Integral) :
    s.Changes (s.evaluate fuel node text pos).2 := by
  obtain ⟨written, hj⟩ := evaluateIn_journal fuel s.slots text node pos s.journal
  simp only [evaluate, hj]
  exact Change.write.changes

theorem run_changes {r : Rule} (hr : r ∈ s.rules) (fuel : Nat) (text : List Char) (pos : Value) :
    s.Changes (s.run fuel r text pos).2 := by
  unfold run
  split
  · exact .refl s
  · have hc := (Build.check_does hr).1
    split
    · rename_i h
      rw [h] at hc
      exact hc
    · rename_i h
      rw [h] at hc
      exact hc.trans (evaluate_changes ..)

theorem note_changes (message : String) : s.Changes (s.note message) := by
  obtain ⟨written, hj⟩ := s.journal.write_eq .debug "parse" message
  rw [note, hj]
  exact Change.write.changes

theorem parse_changes {r : Rule} (hr : r ∈ s.rules) (fuel : Nat) (text : List Char) :
    s.Changes (s.parse fuel r text).2 := by
  unfold parse
  split
  · exact .refl s
  · rename_i label _
    have hn : s.Changes (s.note _) :=
      note_changes ("parse " ++ label ++ " over " ++ toString text.length ++ " chars")
    have hrun := hn.trans (run_changes (hn.mem hr) fuel text (.int 0))
    simp only
    split
    · exact hrun
    · exact hrun
    · split
      · exact hrun
      · exact hrun.trans (note_changes _)

end Session

/-! ### Calls -/

/-- A call on the rules of a session. The moves that a run may make are part of it. A leaf is made
for a text, or for a pattern of whatever kind. -/
inductive Call where
  | leaf (pattern : Value) (flags : Pattern.Flags)
  | leafFor (pattern : Pattern)
  | empty
  | andThen (r : Rule) (other : Operand)
  | orElse (r : Rule) (other : Operand)
  | both (left right : Operand)
  | either (left right : Operand)
  | rep (r : Rule) (least most : Value)
  | map (r : Rule) (f : Mapper)
  | markInjection (r : Rule)
  | inject (r : Rule)
  | check (r : Rule)
  | run (r : Rule) (fuel : Nat) (text : List Char) (pos : Value)
  | parse (r : Rule) (fuel : Nat) (text : List Char)

namespace Call

/-- The rules that the call is made on and with are rules of the session. -/
def IsOn (s : Session) : Call → Prop
  | .leaf _ _ | .leafFor _ | .empty => True
  | .andThen r o | .orElse r o => r ∈ s.rules ∧ o.IsOn s
  | .both a b | .either a b => a.IsOn s ∧ b.IsOn s
  | .rep r _ _ | .map r _ | .markInjection r | .inject r | .check r | .run r _ _ _
  | .parse r _ _ => r ∈ s.rules

/-- The session after the call, whether it gave an answer or a fault. -/
def perform (s : Session) : Call → Session
  | .leaf pattern flags => (Build.leafOf pattern flags s).2
  | .leafFor pattern => (Build.leafFor pattern s).2
  | .empty => (Build.empty s).2
  | .andThen r o => (Build.andThen r o s).2
  | .orElse r o => (Build.orElse r o s).2
  | .both a b => (Build.both a b s).2
  | .either a b => (Build.either a b s).2
  | .rep r least most => (Build.rep r least most s).2
  | .map r f => (Build.map r f s).2
  | .markInjection r => (Build.markInjection r s).2
  | .inject r => (Build.inject r s).2
  | .check r => (Build.check r s).2
  | .run r fuel text pos => (s.run fuel r text pos).2
  | .parse r fuel text => (s.parse fuel r text).2

/-- **A call is a sequence of changes.** -/
theorem changes {s : Session} (w : s.WF) (c : Call) (hc : c.IsOn s) : s.Changes (c.perform s) := by
  cases c with
  | leaf pattern flags => exact (Build.leafOf_does w pattern flags).1
  | leafFor pattern => exact (Build.leafFor_does w pattern).1
  | empty => exact (Build.empty_does w).1
  | andThen r o => exact (Build.andThen_does w hc.1 hc.2).1
  | orElse r o => exact (Build.orElse_does w hc.1 hc.2).1
  | both a b => exact (Build.both_does w hc.1 hc.2).1
  | either a b => exact (Build.either_does w hc.1 hc.2).1
  | rep r least most => exact (Build.rep_does least most w hc).1
  | map r f => exact (Build.map_does f w hc).1
  | markInjection r => exact (Build.markInjection_does w hc).1
  | inject r => exact (Build.inject_does hc).1
  | check r => exact (Build.check_does hc).1
  | run r fuel text pos => exact Session.run_changes hc fuel text pos
  | parse r fuel text => exact Session.parse_changes hc fuel text

end Call

namespace Session

/-- The sessions that calls lead to from a session. -/
inductive Later (s : Session) : Session → Prop where
  | refl : Later s s
  | call {s' : Session} (c : Call) : Later s s' → c.IsOn s' → Later s (c.perform s')

/-- The sessions that calls lead to from one without rules. -/
def Reachable (s : Session) : Prop := ∃ j, (Session.new j).Later s

theorem Later.changes {s s' : Session} (w : s.WF) (h : s.Later s') : s.Changes s' := by
  induction h with
  | refl => exact .refl s
  | call c _ hc ih => exact ih.trans (c.changes (w.changes ih) hc)

/-- The invariant holds in every session that can be reached. -/
theorem Reachable.wf {s : Session} (h : s.Reachable) : s.WF := by
  obtain ⟨j, h⟩ := h
  exact (WF.new j).changes (h.changes (WF.new j))

end Session

end LeafGrammar
