import LeafGrammar.Proofs.Session.Resolution
import Mathlib.Data.List.Chain

/-!
# Rules, chains and slots

Rules, nodes and slots make up a heap that is only added to. A node is made of nodes that were there
before it, so the graph of a rule comes back to a node through a slot or not at all
(`Session.WF.exists_slot_of_cycle`). A rule that is made from another one is on its chain, and a
leaf or an empty rule starts a chain of its own. A step that makes a rule leaves everything that is
there in its place (`Session.Kept`), whether it gives the rule or faults; the one step that changes
something is an injection, which fills a slot that was empty.
-/

namespace LeafGrammar

namespace Session

/-! ### Cycles -/

/-- From the node to the one that is in its slot. -/
def GoesThroughSlot (s : Session) (n m : Node) : Prop :=
  ∃ slot, n.slot? = some slot ∧ s.slots.target? slot = some m

variable {s s' : Session}

theorem WF.part {n c : Node} (w : s.WF) (hn : s.HasNode n) (hc : c ∈ n.parts) :
    s.HasNode c ∧ c.id < n.id := by
  obtain ⟨r, hr, rfl⟩ := hn
  obtain ⟨r', hr', rfl, hlt⟩ := w.parts r hr c hc
  obtain ⟨i, hi, rfl⟩ := Array.mem_iff_getElem.mp hr
  obtain ⟨j, hj, rfl⟩ := Array.mem_iff_getElem.mp hr'
  obtain ⟨hid, hnode⟩ := w.id_eq i _ (Array.getElem?_eq_getElem hi)
  obtain ⟨hid', hnode'⟩ := w.id_eq j _ (Array.getElem?_eq_getElem hj)
  refine ⟨⟨_, hr', rfl⟩, ?_⟩
  rw [hid, hid'] at hlt
  rw [hnode, hnode']
  exact hlt

/-- A child is an earlier node, or it is in the slot. -/
theorem WF.child_cases {n c : Node} (w : s.WF) (hn : s.HasNode n)
    (hc : c ∈ n.children s.slots) : c.id < n.id ∨ s.GoesThroughSlot n c := by
  rw [Node.children_eq, List.mem_append] at hc
  rcases hc with hc | hc
  · exact .inl (w.part hn hc).2
  · rw [Option.mem_toList, Option.bind_eq_some_iff] at hc
    exact .inr hc

/-- Along a path that goes through no slot the numbers fall. -/
theorem WF.path_cases {path : List Node} (w : s.WF) {n : Node} (hn : s.HasNode n)
    (hpath : List.IsChain (fun a b => b ∈ a.children s.slots) (n :: path)) :
    (∃ a b, [a, b] <:+: n :: path ∧ s.GoesThroughSlot a b) ∨ ∀ m ∈ path, m.id < n.id := by
  induction path generalizing n with
  | nil => exact .inr (by simp)
  | cons c rest ih =>
    rw [List.isChain_cons_cons] at hpath
    obtain ⟨hc, hrest⟩ := hpath
    rcases w.child_cases hn hc with hlt | hslot
    · rcases ih (w.hasNode_child hn hc) hrest with ⟨a, b, hab, hslot⟩ | hall
      · exact .inl ⟨a, b, hab.trans (List.suffix_cons n _).isInfix, hslot⟩
      · right
        simp only [List.mem_cons, forall_eq_or_imp]
        exact ⟨hlt, fun m hm => Nat.lt_trans (hall m hm) hlt⟩
    · exact .inl ⟨n, c, ⟨[], rest, rfl⟩, hslot⟩

/-- **Every cycle goes through a slot.** -/
theorem WF.exists_slot_of_cycle {path : List Node} (w : s.WF) {n m : Node} (hn : s.HasNode n)
    (hpath : List.IsChain (fun a b => b ∈ a.children s.slots) (n :: path)) (hm : m ∈ path)
    (hid : m.id = n.id) : ∃ a b, [a, b] <:+: n :: path ∧ s.GoesThroughSlot a b := by
  rcases w.path_cases hn hpath with h | hall
  · exact h
  · exact absurd hid (Nat.ne_of_lt (hall m hm))

/-! ### What stays in its place -/

/-- Whatever is in the one session is in the other, in the same place: only rules and chains are
added. -/
structure Kept (s s' : Session) : Prop where
  rules : s.rules.toList <+: s'.rules.toList
  slots : s.slots.toList <+: s'.slots.toList
  passed : s.passed.toList <+: s'.passed.toList
  journal : s'.journal = s.journal

theorem Kept.refl (s : Session) : s.Kept s :=
  ⟨List.prefix_rfl, List.prefix_rfl, List.prefix_rfl, rfl⟩

theorem Kept.trans {s'' : Session} (h : s.Kept s') (h' : s'.Kept s'') : s.Kept s'' :=
  ⟨h.rules.trans h'.rules, h.slots.trans h'.slots, h.passed.trans h'.passed,
    h'.journal.trans h.journal⟩

instance : IsPreorder Session Kept where
  refl := Kept.refl
  trans _ _ _ := Kept.trans

theorem Kept.mem (h : s.Kept s') {r : Rule} (hr : r ∈ s.rules) : r ∈ s'.rules := by
  rw [← Array.mem_toList_iff] at hr ⊢
  exact h.rules.subset hr

/-- No rule of the session is on the chain. -/
def IsFresh (s : Session) (chain : SlotId) : Prop := ∀ q ∈ s.rules, q.chain ≠ chain

theorem WF.isFresh (w : s.WF) : s.IsFresh s.slots.size := by
  intro q hq
  exact Nat.ne_of_lt (w.chain_lt q hq)

end Session

/-! ### Steps that make a rule -/

namespace Build

open Session

variable {s : Session}

theorem prefix_push {α : Type} (xs : Array α) (x : α) : xs.toList <+: (xs.push x).toList := by
  rw [Array.toList_push]
  exact List.prefix_append ..

theorem issue_keeps (node : NodeId → Node) (chain : SlotId) :
    Leads Kept (issue node chain) s fun r s' =>
      r ∈ s'.rules ∧ r.chain = chain ∧ r.node = node r.id := by
  refine ⟨⟨prefix_push _ _, List.prefix_rfl, prefix_push _ _, rfl⟩, ?_⟩
  rintro r ⟨⟩
  exact ⟨Array.mem_push_self, rfl, rfl⟩

/-- A rule that starts a chain is on the next one. -/
theorem issueFresh_keeps (node : NodeId → Node) :
    Leads Kept (issueFresh node) s fun r s' =>
      r ∈ s'.rules ∧ r.chain = s.slots.size ∧ r.node = node r.id := by
  have hopen : s.Kept { s with slots := s.slots.push none } :=
    ⟨List.prefix_rfl, prefix_push _ _, List.prefix_rfl, rfl⟩
  obtain ⟨hkept, hr⟩ : Leads Kept (issue node s.slots.size) { s with slots := s.slots.push none } _ :=
    issue_keeps node s.slots.size
  exact ⟨hopen.trans hkept, hr⟩

/-- What a new leaf is: a rule of the session, on a chain that was not there. -/
structure IsNewLeaf (s : Session) (r : Rule) (s' : Session) : Prop where
  mem : r ∈ s'.rules
  chain_eq : r.chain = s.slots.size
  node_eq : ∃ p, r.node = .leaf r.id p

theorem leafFor_keeps (p : Pattern) : Leads Kept (leafFor p) s (IsNewLeaf s) := by
  refine (issueFresh_keeps (.leaf · p)).mono ?_
  rintro r s' - ⟨hmem, hchain, hnode⟩
  exact ⟨hmem, hchain, p, hnode⟩

theorem leaf_keeps (source : String) (flags : Pattern.Flags) :
    Leads Kept (leaf source flags) s (IsNewLeaf s) := by
  unfold leaf leafRead
  split
  · exact leafFor_keeps _
  · exact .fault _
  · exact .fault _

theorem leafOf_keeps (v : Value) (flags : Pattern.Flags) :
    Leads Kept (leafOf v flags) s (IsNewLeaf s) := by
  unfold leafOf
  split
  · exact leaf_keeps _ _
  · exact .fault _

/-- What an operand stands for: the rule that it is, or a new leaf. -/
def StandsFor (s : Session) (o : Operand) (r : Rule) (s' : Session) : Prop :=
  match o with
  | .rule q => r = q
  | .value _ => IsNewLeaf s r s'

theorem StandsFor.kept {o : Operand} {r : Rule} {s₁ s₂ : Session} (h : StandsFor s o r s₁)
    (hkept : s₁.Kept s₂) : StandsFor s o r s₂ := by
  cases o with
  | rule q => exact h
  | value v => exact { h with mem := hkept.mem h.mem }

theorem coerce_keeps (o : Operand) : Leads Kept (coerce o) s (StandsFor s o) := by
  unfold coerce
  split
  · exact .pure rfl
  · exact leaf_keeps _ _
  · exact .fault _

/-- A rule that is made from another one holds its node and is on its chain. -/
structure IsMadeFrom (q r : Rule) : Prop where
  chain_eq : r.chain = q.chain
  part : q.node ∈ r.node.parts

theorem derive_keeps {q : Rule} {node : NodeId → Node} (h : ∀ id, q.node ∈ (node id).parts) :
    Leads Kept (derive q node) s fun r _ => IsMadeFrom q r := by
  refine (issue_keeps node q.chain).mono ?_
  rintro r s' - ⟨-, hchain, hnode⟩
  exact ⟨hchain, hnode ▸ h r.id⟩

theorem andThen_keeps (q : Rule) (o : Operand) :
    Leads Kept (andThen q o) s fun r _ => IsMadeFrom q r :=
  (coerce_keeps o).bind fun _ _ _ _ => derive_keeps fun _ => List.mem_cons_self

theorem orElse_keeps (q : Rule) (o : Operand) :
    Leads Kept (orElse q o) s fun r _ => IsMadeFrom q r :=
  (coerce_keeps o).bind fun _ _ _ _ => derive_keeps fun _ => List.mem_cons_self

/-- What is made from an operand is made from what it stands for. -/
theorem coerced_keeps {o : Operand} {make : Rule → Build Rule}
    (h : ∀ q s, Leads Kept (make q) s fun r _ => IsMadeFrom q r) :
    Leads Kept (coerce o >>= make) s fun r s' => ∃ q, StandsFor s o q s' ∧ IsMadeFrom q r := by
  refine (coerce_keeps o).bind fun q s₁ _ hq => (h q s₁).mono ?_
  intro r s₂ hkept hr
  exact ⟨q, hq.kept hkept, hr⟩

theorem rep_keeps (q : Rule) (least most : Value) :
    Leads Kept (rep q least most) s fun r _ => IsMadeFrom q r := by
  refine (leastOf_leads least).bind fun low s' _ _ => ?_
  refine (mostOf_leads low most).bind fun high s' _ _ => ?_
  exact derive_keeps fun _ => List.mem_cons_self

theorem map_keeps (q : Rule) (f : Mapper) :
    Leads Kept (map q f) s fun r _ => IsMadeFrom q r := by
  unfold map
  split
  · exact derive_keeps fun _ => List.mem_cons_self
  · exact .fault _

theorem markInjection_keeps (q : Rule) :
    Leads Kept (markInjection q) s fun r _ => IsMadeFrom q r :=
  derive_keeps fun _ => List.mem_cons_self

end Build

/-! ### Calls that make a rule -/

namespace Call

open Session Build

/-- The step of a call that is about building. -/
def build? : Call → Option (Build Rule)
  | .leaf pattern flags => some (leafOf pattern flags)
  | .leafFor pattern => some (Build.leafFor pattern)
  | .empty => some Build.empty
  | .andThen r o => some (Build.andThen r o)
  | .orElse r o => some (Build.orElse r o)
  | .both a b => some (Build.both a b)
  | .either a b => some (Build.either a b)
  | .rep r least most => some (Build.rep r least most)
  | .map r f => some (Build.map r f)
  | .markInjection r => some (Build.markInjection r)
  | .inject r => some (Build.inject r)
  | .check _ | .run _ _ _ _ | .parse _ _ _ => none

/-- The operand that a call goes out from. A leaf and an empty rule are made from nothing. -/
def receiver? : Call → Option Operand
  | .andThen r _ | .orElse r _ | .rep r _ _ | .map r _ | .markInjection r | .inject r => some (.rule r)
  | .both a _ | .either a _ => some a
  | .leaf _ _ | .leafFor _ | .empty | .check _ | .run _ _ _ _ | .parse _ _ _ => none

theorem perform_eq {c : Call} {b : Build Rule} (h : c.build? = some b) (s : Session) :
    c.perform s = (b s).2 := by
  cases c <;> cases h <;> rfl

variable {s : Session} {c : Call} {b : Build Rule} {r : Rule}

/-- The rule that a call gives is on the chain of the rule that the call goes out from, or of the
leaf that is made for a text there; a rule made from nothing is on the next chain. -/
def Gives (s : Session) (c : Call) (r : Rule) (s' : Session) : Prop :=
  match c.receiver? with
  | none => r.chain = s.slots.size
  | some (.rule q) => r.chain = q.chain
  | some (.value _) => ∃ q, IsNewLeaf s q s' ∧ IsMadeFrom q r

/-- All but an injection leave everything in its place. -/
theorem build_keeps (h : c.build? = some b) (hc : ∀ q, c ≠ .inject q) :
    Leads Kept b s (c.Gives s) := by
  cases c with
  | leaf pattern flags =>
    cases h
    exact (leafOf_keeps pattern flags).mono fun r _ _ hr => hr.chain_eq
  | leafFor p =>
    cases h
    exact (leafFor_keeps p).mono fun r _ _ hr => hr.chain_eq
  | empty =>
    cases h
    exact (issueFresh_keeps (.empty ·)).mono fun r _ _ hr => hr.2.1
  | andThen q o =>
    cases h
    exact (andThen_keeps q o).mono fun r _ _ hr => hr.chain_eq
  | orElse q o =>
    cases h
    exact (orElse_keeps q o).mono fun r _ _ hr => hr.chain_eq
  | both o o' =>
    cases h
    refine (coerced_keeps fun q _ => andThen_keeps q o').mono ?_
    rintro r s' - ⟨q, hq, hr⟩
    cases o with
    | rule q' => exact hq ▸ hr.chain_eq
    | value v => exact ⟨q, hq, hr⟩
  | either o o' =>
    cases h
    refine (coerced_keeps fun q _ => orElse_keeps q o').mono ?_
    rintro r s' - ⟨q, hq, hr⟩
    cases o with
    | rule q' => exact hq ▸ hr.chain_eq
    | value v => exact ⟨q, hq, hr⟩
  | rep q least most =>
    cases h
    exact (rep_keeps q least most).mono fun r _ _ hr => hr.chain_eq
  | map q f =>
    cases h
    exact (map_keeps q f).mono fun r _ _ hr => hr.chain_eq
  | markInjection q =>
    cases h
    exact (markInjection_keeps q).mono fun r _ _ hr => hr.chain_eq
  | inject q => exact absurd rfl (hc q)
  | _ => cases h

theorem gives_of_ok (h : c.build? = some b) (hr : (b s).1 = .ok r) : c.Gives s r (b s).2 := by
  by_cases hc : ∃ q, c = .inject q
  · obtain ⟨q, rfl⟩ := hc
    cases h
    rw [inject_eq] at hr
    split at hr
    · cases hr
    · cases hr
      rfl
  · exact (build_keeps h fun q hq => hc ⟨q, hq⟩).2 r hr

/-- **A call that faults leaves everything in its place.** An injection faults before it fills the
slot, and no other call changes what is there. -/
theorem kept_of_fault (h : c.build? = some b) {f : Fault} (hf : (b s).1 = .error f) :
    s.Kept (b s).2 := by
  by_cases hc : ∃ q, c = .inject q
  · obtain ⟨q, rfl⟩ := hc
    cases h
    rw [inject_eq] at hf ⊢
    split at hf
    · exact .refl s
    · cases hf
  · exact (build_keeps h fun q hq => hc ⟨q, hq⟩).1

end Call

/-! ### The heap -/

namespace Session

/-- **The rules, nodes and slots of a session.** -/
structure HeapInvariant (s : Session) : Prop where
  /-- Rules and nodes are numbered in the order in which they were made. -/
  numbered : ∀ (i : Nat) (r : Rule), s.rules[i]? = some r → r.id = i ∧ r.node.id = i
  /-- A node is made of earlier nodes. -/
  earlier : ∀ n, s.HasNode n → ∀ c ∈ n.parts, s.HasNode c ∧ c.id < n.id
  /-- A path that comes back to where it started goes through a slot. -/
  cycles : ∀ (n m : Node) (path : List Node), s.HasNode n →
    List.IsChain (fun a b => b ∈ a.children s.slots) (n :: path) → m ∈ path → m.id = n.id →
      ∃ a b, [a, b] <:+: n :: path ∧ s.GoesThroughSlot a b
  /-- A leaf or an empty rule is on a chain that no earlier rule is on. -/
  leaves : ∀ r ∈ s.rules, r.node.parts = [] → ∀ q ∈ s.rules, q.id < r.id → q.chain ≠ r.chain
  /-- Any other rule is on the chain of the rule whose node is the first part of its own. -/
  receivers : ∀ r ∈ s.rules, ∀ c ∈ r.node.parts.head?,
    ∃ q ∈ s.rules, q.node = c ∧ q.chain = r.chain
  /-- A call that makes a rule from nothing puts it on a chain that no rule is on yet. -/
  started : ∀ (c : Call) (b : Build Rule) (r : Rule), c.build? = some b → c.receiver? = none →
    (b s).1 = .ok r → s.IsFresh r.chain
  /-- A call that makes a rule from a rule puts it on the chain of that one. -/
  derived : ∀ (c : Call) (b : Build Rule) (q r : Rule), c.build? = some b →
    c.receiver? = some (.rule q) → (b s).1 = .ok r → r.chain = q.chain
  /-- A call that makes a rule from a text puts it on the chain of the leaf that it makes for the
  text, and no rule is on that one yet. -/
  coerced : ∀ (c : Call) (b : Build Rule) (v : Value) (r : Rule), c.build? = some b →
    c.receiver? = some (.value v) → (b s).1 = .ok r →
      ∃ q ∈ (c.perform s).rules, (∃ p, q.node = .leaf q.id p) ∧ q.node ∈ r.node.parts ∧
        s.IsFresh q.chain ∧ r.chain = q.chain
  /-- An injection point has the slot of the chain that it was marked on. -/
  marked : (∀ q r, (Build.markInjection q s).1 = .ok r → r.node = .splice r.id q.node q.chain) ∧
    ∀ r ∈ s.rules, ∀ slot, r.node.slot? = some slot → slot = r.chain
  /-- A slot that is filled holds the node of a rule on its chain, and the same one ever after. -/
  filled : ∀ slot n, s.slots.target? slot = some n →
    (∃ q ∈ s.rules, q.node = n ∧ q.chain = slot) ∧
      ∀ s', s.Later s' → s'.slots.target? slot = some n
  /-- A call that faults leaves rules, nodes and slots as they are. -/
  faults : ∀ (c : Call) (b : Build Rule) (f : Fault), c.build? = some b → (b s).1 = .error f →
    s.Kept (c.perform s)

theorem heapInvariant_of_reachable (s : Session) (hs : s.Reachable) : s.HeapInvariant where
  numbered := hs.wf.id_eq
  earlier n hn c hc := hs.wf.part hn hc
  cycles n m path hn hpath hm hid := hs.wf.exists_slot_of_cycle hn hpath hm hid
  leaves := hs.wf.starts
  receivers := hs.wf.receiver
  started c b r hb hreceiver hr := by
    have hgives := Call.gives_of_ok hb hr
    rw [Call.Gives, hreceiver] at hgives
    exact hgives ▸ hs.wf.isFresh
  derived c b q r hb hreceiver hr := by
    have hgives := Call.gives_of_ok hb hr
    rw [Call.Gives, hreceiver] at hgives
    exact hgives
  coerced c b v r hb hreceiver hr := by
    have hgives := Call.gives_of_ok hb hr
    rw [Call.Gives, hreceiver] at hgives
    obtain ⟨q, hleaf, hmade⟩ := hgives
    rw [Call.perform_eq hb]
    exact ⟨q, hleaf.mem, hleaf.node_eq, hmade.part, hleaf.chain_eq ▸ hs.wf.isFresh, hmade.chain_eq⟩
  marked := by
    constructor
    · intro q r hr
      exact ((Build.issue_keeps (.splice · q.node q.chain) q.chain).2 r hr).2.2
    · exact hs.wf.slot_eq
  filled slot n ht := by
    constructor
    · exact hs.wf.target slot n ht
    · intro s' hlater
      exact (hlater.changes hs.wf).filledIn slot n ht
  faults c b f hb hf := by
    rw [Call.perform_eq hb]
    exact Call.kept_of_fault hb hf

/-- A rule that is injected behind its own letter: what its graph comes back to, it comes back to
through the slot. Joining a text to no rule makes a leaf for the text and then faults, and nothing
else has changed. -/
theorem heapInvariant_of_reachable_letter :
    ∃ (s : Session) (n : Node), s.Reachable ∧ s.slots.target? 0 = some n ∧
      (∃ a b, [a, b] <:+: [n, n] ∧ s.GoesThroughSlot a b) ∧
      (∃ f, (Build.both (.value (.text "b")) (.value .null) s).1 = .error f) ∧
      (Call.both (.value (.text "b")) (.value .null)).perform s ≠ s ∧
      s.Kept ((Call.both (.value (.text "b")) (.value .null)).perform s) := by
  let quiet := Journal.new false "WARNING"
  let letter : Rule := ⟨0, .leaf 0 (.ofRegex "a" (.one (.ofChar 'a') .exact)), 0⟩
  let point : Rule := ⟨1, .splice 1 letter.node 0, 0⟩
  let s₁ : Session := ⟨#[letter], #[none], #[false], quiet⟩
  let s₂ : Session := ⟨#[letter, point], #[none], #[false, false], quiet⟩
  let s : Session := ⟨#[letter, point], #[some point.node], #[false, false], quiet⟩
  have h₁ : (Session.new quiet).Later s₁ := .call (.leaf (.text "a") .none) .refl trivial
  have h₂ : (Session.new quiet).Later s₂ := .call (.markInjection letter) h₁ (by simp [s₁, Call.IsOn])
  have hpoint : point ∈ s.rules := by simp [s]
  have hs : s.Reachable := ⟨quiet, .call (.inject point) h₂ hpoint⟩
  have hfault : (Build.both (.value (.text "b")) (.value .null) s).1 = .error (.kind (.operand .null)) :=
    rfl
  have hheap := heapInvariant_of_reachable s hs
  refine ⟨s, point.node, hs, rfl, ?_, ⟨_, hfault⟩, ?_, hheap.faults _ _ _ rfl hfault⟩
  · refine hheap.cycles point.node point.node [point.node] ⟨point, hpoint, rfl⟩ ?_ (by simp) rfl
    simp [Node.children, Slots.target?, s, point]
  · intro h
    have hsize : ((Call.both (.value (.text "b")) (.value .null)).perform s).rules.size = 3 := rfl
    rw [h] at hsize
    cases hsize

end Session

end LeafGrammar
