import LeafGrammar.Grammar.Catalogue
import LeafGrammar.Proofs.Engine.Refinement
import LeafGrammar.Proofs.Session.Resolution

/-!
# Building a grammar and parsing with it

A grammar is built by steps that cannot go wrong: `Build.Makes` says what rule such a step
gives, in a session that has the same slots filled as before and the same journal.

Parsing a text with a rule is deriving the rule's ending at the start of the text and
concluding from it (`Session.parse_endsWith`): the check passes a resolved rule, and all
that the journal is told does not matter, unless a trace stops the run (`Session.RunsFreely`).
`EndsWith` says this for all numbers of moves at once.
-/

namespace LeafGrammar

/-! ### Outcomes -/

namespace Outcome

variable {α β : Type}

/-- Go on with the value, if there is one. -/
def andThen (g : α → Except Fault β) : Outcome α → Outcome β
  | .value a => .ofExcept (g a)
  | .raised f => .raised f
  | .outOfFuel => .outOfFuel

theorem andThen_ofExcept (g : α → Except Fault β) (x : Except Fault α) :
    (ofExcept x).andThen g = .ofExcept (x >>= g) := by
  cases x <;> rfl

theorem andThen_ne_outOfFuel {o : Outcome α} (h : o ≠ .outOfFuel) (g : α → Except Fault β) :
    o.andThen g ≠ .outOfFuel := by
  cases o with
  | value a =>
    show ofExcept (g a) ≠ .outOfFuel
    cases g a <;> exact nofun
  | raised f => exact nofun
  | outOfFuel => exact absurd rfl h

theorem ofExcept_ne_outOfFuel (x : Except Fault α) : ofExcept x ≠ .outOfFuel := by
  cases x <;> exact nofun

theorem ofExcept_injective {x y : Except Fault α} (h : ofExcept x = ofExcept y) : x = y := by
  cases x <;> cases y <;> cases h <;> rfl

end Outcome

/-- The computation ends with `x` as soon as it is given moves enough, and with nothing
before that. -/
def EndsWith {α : Type} (run : Nat → Outcome α) (x : Except Fault α) : Prop :=
  (∃ n, ∀ fuel, n ≤ fuel → run fuel = .ofExcept x) ∧
    ∀ fuel, run fuel = .outOfFuel ∨ run fuel = .ofExcept x

namespace EndsWith

variable {α β : Type} {run : Nat → Outcome α} {x : Except Fault α}

theorem andThen (h : EndsWith run x) (g : α → Except Fault β) :
    EndsWith (fun fuel => (run fuel).andThen g) (x >>= g) := by
  obtain ⟨⟨n, hn⟩, hall⟩ := h
  refine ⟨⟨n, fun fuel hfuel => ?_⟩, fun fuel => ?_⟩
  · show (run fuel).andThen g = _
    rw [hn fuel hfuel, Outcome.andThen_ofExcept]
  · show (run fuel).andThen g = _ ∨ (run fuel).andThen g = _
    rcases hall fuel with hf | hf
    · exact .inl (by rw [hf]; rfl)
    · exact .inr (by rw [hf, Outcome.andThen_ofExcept])

/-- Whatever it ends with for some number of moves, it is this. -/
theorem eq_of_run (h : EndsWith run x) {fuel : Nat} {y : Except Fault α}
    (hy : run fuel = .ofExcept y) : y = x := by
  rcases h.2 fuel with hf | hf
  · exact absurd (hy.symm.trans hf) (Outcome.ofExcept_ne_outOfFuel y)
  · exact Outcome.ofExcept_injective (hy.symm.trans hf)

theorem exists_run (h : EndsWith run x) : ∃ fuel, run fuel = .ofExcept x := by
  obtain ⟨n, hn⟩ := h.1
  exact ⟨n, hn n (Nat.le_refl n)⟩

end EndsWith

/-! ### Building -/

/-- The one session comes after the other without a slot filled or a line written. -/
structure Session.Grown (s s' : Session) : Prop where
  target?_eq : ∀ slot, s'.slots.target? slot = s.slots.target? slot
  size_le : s.slots.size ≤ s'.slots.size
  journal_eq : s'.journal = s.journal

theorem Session.Grown.refl (s : Session) : s.Grown s := ⟨fun _ => rfl, Nat.le_refl _, rfl⟩

theorem Session.Grown.trans {s s' s'' : Session} (h : s.Grown s') (h' : s'.Grown s'') :
    s.Grown s'' :=
  ⟨fun slot => (h'.target?_eq slot).trans (h.target?_eq slot), Nat.le_trans h.size_le h'.size_le,
    h'.journal_eq.trans h.journal_eq⟩

namespace Build

variable {s : Session} {P Q : Rule → Session → Prop}

/-- The step gives a rule with the property, and does not fill a slot. -/
def Makes (b : Build Rule) (s : Session) (P : Rule → Session → Prop) : Prop :=
  ∃ r s', b s = (.ok r, s') ∧ s.Grown s' ∧ P r s'

theorem Makes.bind {b : Build Rule} {f : Rule → Build Rule} (hb : Makes b s P)
    (hf : ∀ r s', s.Grown s' → P r s' → Makes (f r) s' Q) : Makes (b >>= f) s Q := by
  obtain ⟨r, s', hrun, hg, hP⟩ := hb
  obtain ⟨r', s'', hrun', hg', hQ⟩ := hf r s' hg hP
  exact ⟨r', s'', by rw [run_bind_ok hrun, hrun'], hg.trans hg', hQ⟩

theorem Makes.mono {b : Build Rule} (hb : Makes b s P) (h : ∀ r s', s.Grown s' → P r s' → Q r s') :
    Makes b s Q := by
  obtain ⟨r, s', hrun, hg, hP⟩ := hb
  exact ⟨r, s', hrun, hg, h r s' hg hP⟩

/-- The step gives a rule with the property, and may fill a slot. -/
def Yields (b : Build Rule) (s : Session) (P : Rule → Session → Prop) : Prop :=
  ∃ r s', b s = (.ok r, s') ∧ P r s'

/-- One step that fills no slot, in the middle of a building that has filled none since
`s₀`. -/
theorem Makes.step {s₀ : Session} {b : Build Rule} {f : Rule → Build Rule} (hb : Makes b s P)
    (hg : s₀.Grown s) (hf : ∀ r s', s₀.Grown s' → P r s' → Yields (f r) s' Q) :
    Yields (b >>= f) s Q := by
  obtain ⟨r, s', hrun, hg', hP⟩ := hb
  obtain ⟨r', s'', hrun', hQ⟩ := hf r s' (hg.trans hg') hP
  exact ⟨r', s'', by rw [run_bind_ok hrun, hrun'], hQ⟩

/-- A rule that starts a chain has the next slot, which is empty. -/
theorem issueFresh_makes (node : NodeId → Node) :
    Makes (issueFresh node) s fun r s' =>
      (∃ id, r.node = node id) ∧ r.chain = s.slots.size ∧ s.slots.size < s'.slots.size := by
  refine ⟨_, _, rfl, ⟨fun slot => ?_, ?_, rfl⟩, ⟨_, rfl⟩, rfl, ?_⟩
  · exact Slots.target?_push_none _ _
  · simp
  · simp

theorem leaf_makes {source : String} {p : Pattern} (h : Pattern.read source .none = .ok p) :
    Makes (leaf source .none) s fun r s' =>
      (∃ id, r.node = .leaf id p) ∧ r.chain = s.slots.size ∧ s.slots.size < s'.slots.size := by
  unfold leaf
  rw [h]
  exact issueFresh_makes (.leaf · p)

/-- A rule that is made from another stays on its chain. -/
theorem derive_makes (r : Rule) (node : NodeId → Node) :
    Makes (derive r node) s fun r' _ => (∃ id, r'.node = node id) ∧ r'.chain = r.chain :=
  ⟨_, _, rfl, ⟨fun _ => rfl, Nat.le_refl _, rfl⟩, ⟨_, rfl⟩, rfl⟩

theorem andThen_makes (r r₂ : Rule) :
    Makes (andThen r (.rule r₂)) s fun r' _ =>
      (∃ id, r'.node = .seq id r.node r₂.node) ∧ r'.chain = r.chain :=
  derive_makes r (.seq · r.node r₂.node)

theorem orElse_makes (r r₂ : Rule) :
    Makes (orElse r (.rule r₂)) s fun r' _ =>
      (∃ id, r'.node = .choice id r.node r₂.node) ∧ r'.chain = r.chain :=
  derive_makes r (.choice · r.node r₂.node)

theorem star_makes (r : Rule) :
    Makes (star r) s fun r' _ =>
      (∃ id, r'.node = .rep id r.node (.num 0) none) ∧ r'.chain = r.chain :=
  derive_makes r (.rep · r.node (.num 0) none)

theorem optional_makes (r : Rule) :
    Makes (optional r) s fun r' _ =>
      (∃ id, r'.node = .rep id r.node (.num 0) (some (.num 1))) ∧ r'.chain = r.chain :=
  derive_makes r (.rep · r.node (.num 0) (some (.num 1)))

theorem map_makes (r : Rule) (a : Action) :
    Makes (map r (.action a)) s fun r' _ =>
      (∃ id, r'.node = .map id r.node a) ∧ r'.chain = r.chain :=
  derive_makes r (.map · r.node a)

theorem markInjection_makes (r : Rule) :
    Makes (markInjection r) s fun r' _ =>
      (∃ id, r'.node = .splice id r.node r.chain) ∧ r'.chain = r.chain :=
  derive_makes r (.splice · r.node r.chain)

/-- Injection fills the slot of the chain, if that is there and empty. -/
theorem inject_run {r : Rule} (hslot : r.chain < s.slots.size)
    (hempty : s.slots.target? r.chain = none) :
    ∃ s', inject r s = (.ok r, s') ∧ s'.slots.target? r.chain = some r.node ∧
      s'.journal = s.journal := by
  refine ⟨{ s with slots := s.slots.setIfInBounds r.chain (some r.node) }, ?_, ?_, rfl⟩
  · rw [inject_eq, hempty]
  · rw [Slots.target?_setIfInBounds, if_pos ⟨rfl, hslot⟩]

theorem inject_step {r : Rule} {f : Rule → Build Rule} (hslot : r.chain < s.slots.size)
    (hempty : s.slots.target? r.chain = none)
    (hf : ∀ s', s'.slots.target? r.chain = some r.node → s'.journal = s.journal →
      Yields (f r) s' Q) : Yields (inject r >>= f) s Q := by
  obtain ⟨s', hrun, hfilled, hjournal⟩ := inject_run hslot hempty
  obtain ⟨r', s'', hrun', hQ⟩ := hf s' hfilled hjournal
  exact ⟨r', s'', by rw [run_bind_ok hrun, hrun'], hQ⟩

/-- The check passes a resolved rule in any session. -/
theorem check_of_resolved {r : Rule} (h : r.node.Resolved s.slots) :
    ∃ s', check r s = (.ok (), s') ∧ s'.slots = s.slots ∧ s'.journal = s.journal := by
  rw [check_eq]
  split
  · exact ⟨s, rfl, rfl, rfl⟩
  · cases hv : s.verdict r.node with
    | resolved => exact ⟨s.markPassed r, rfl, rfl, rfl⟩
    | unfinished => exact ⟨s, rfl, rfl, rfl⟩
    | unresolved base =>
      obtain ⟨n, hn, m, hm, hu, -⟩ := Session.exists_of_search_unresolved hv
      rw [List.mem_singleton.mp hn] at hm
      exact absurd hu (h m hm)

end Build

/-! ### Parsing -/

namespace Session

variable {s : Session} {text : List Char} {e : Finish}

/-- What parsing makes of a result. -/
def conclusion (text : List Char) (result : Result) : Except Fault (List Value) :=
  (conclude text result).mapError fun failed => .parse failed.1

theorem conclusion_success {tokens : List Value} {q : Integral} (hq : q.toInt = text.length) :
    conclusion text (.success tokens q) = .ok tokens := by
  have hall : conclude text (.success tokens q) = .ok tokens := if_pos hq
  rw [conclusion, hall]
  rfl

theorem conclusion_unconsumed {tokens : List Value} {q : Integral} (hq : q.toInt ≠ text.length) :
    conclusion text (.success tokens q) =
      .error (.parse ⟨some "Unconsumed input", some q, some text⟩) := by
  have hrest : conclude text (.success tokens q) = .error _ := if_neg hq
  rw [conclusion, hrest]
  rfl

/-- A success that uses up the text gives its tokens, and anything else is a parse failure. -/
theorem conclusion_cases (text : List Char) (result : Result) :
    (∃ tokens q, result = .success tokens q ∧ q.toInt = text.length) ∨
      ∃ failure, conclusion text result = .error (.parse failure) := by
  rcases result with ⟨tokens, q⟩ | ⟨q, c⟩
  · by_cases hq : q.toInt = text.length
    · exact .inl ⟨tokens, q, rfl, hq⟩
    · exact .inr ⟨_, conclusion_unconsumed hq⟩
  · exact .inr ⟨_, rfl⟩

/-- A trace, if there is one, does not keep the node from being run from the start of the text,
whatever has been written before. -/
def RunsFreely (s : Session) (text : List Char) (node : Node) : Prop :=
  ∀ j : Journal, j.trace = s.journal.trace → ∀ fuel,
    (evaluateIn fuel s.slots text node (.num 0) j).1 =
      LeafGrammar.evaluate fuel s.slots text node (.num 0)

theorem RunsFreely.of_not_trace {node : Node} (ht : s.journal.trace = false) :
    s.RunsFreely text node := by
  intro j hj fuel
  simp [evaluateIn, hj, ht]

/-- Where a trace is no hindrance a node ends with what is derived. -/
theorem evaluate_endsWith {node : Node} (hfree : s.RunsFreely text node)
    (hd : Derives s.slots text (.node node (.num 0)) e) :
    EndsWith (fun fuel => (s.evaluate fuel node text (.num 0)).1) e := by
  have hplain (fuel : Nat) : (s.evaluate fuel node text (.num 0)).1 =
      LeafGrammar.evaluate fuel s.slots text node (.num 0) := hfree s.journal rfl fuel
  simp only [hplain]
  constructor
  · obtain ⟨n, hn⟩ := Machine.exists_evaluate_eq_iff.mpr hd
    exact ⟨n, fun fuel hfuel =>
      Machine.run_eq_ofExcept_iff.mpr ((Machine.run_eq_ofExcept_iff.mp hn).mono hfuel)⟩
  · intro fuel
    have hunique (e' : Finish)
        (h : LeafGrammar.evaluate fuel s.slots text node (.num 0) = .ofExcept e') : e' = e :=
      Machine.derives_unique (Machine.exists_evaluate_eq_iff.mp ⟨fuel, h⟩) hd
    cases hout : LeafGrammar.evaluate fuel s.slots text node (.num 0) with
    | outOfFuel => exact .inl hout
    | value r =>
      obtain rfl := hunique (.ok r) hout
      exact .inr hout
    | raised f =>
      obtain rfl := hunique (.error f) hout
      exact .inr hout

theorem run_endsWith {r : Rule} (hfree : s.RunsFreely text r.node)
    (hres : r.node.Resolved s.slots) (hd : Derives s.slots text (.node r.node (.num 0)) e) :
    EndsWith (fun fuel => (s.run fuel r text (.int 0)).1) e := by
  obtain ⟨s', hcheck, hslots, hjournal⟩ := Build.check_of_resolved hres
  have hstart : startOf (.int 0) = .ok (.num 0) := rfl
  have hrun (fuel : Nat) :
      s.run fuel r text (.int 0) = s'.evaluate fuel r.node text (.num 0) := by
    unfold run
    rw [hstart]
    simp only [hcheck]
  simp only [hrun]
  have hfree' : s'.RunsFreely text r.node := by
    unfold RunsFreely
    rw [hslots, hjournal]
    exact hfree
  exact evaluate_endsWith hfree' (hslots ▸ hd)

theorem trace_note (s : Session) (message : String) :
    (s.note message).journal.trace = s.journal.trace := by
  unfold note Journal.write
  split <;> rfl

theorem RunsFreely.note {node : Node} (hfree : s.RunsFreely text node) (message : String) :
    (s.note message).RunsFreely text node :=
  fun j hj => hfree j (hj.trans (trace_note s message))

/-- A rule that can be named is run, and parsing concludes from what the run gives. -/
theorem parse_fst {r : Rule} {label : String} (hl : r.node.label = .ok label) (text : List Char) :
    ∃ message, ∀ fuel, (s.parse fuel r text).1 =
      ((s.note message).run fuel r text (.int 0)).1.andThen (conclusion text) := by
  refine ⟨"parse " ++ label ++ " over " ++ toString text.length ++ " chars", fun fuel => ?_⟩
  generalize hm : "parse " ++ label ++ " over " ++ toString text.length ++ " chars" = message
  obtain ⟨out, s', hout⟩ : ∃ out s', (s.note message).run fuel r text (.int 0) = (out, s') :=
    ⟨_, _, rfl⟩
  simp only [parse, hl, hm]
  rw [hout]
  cases out with
  | outOfFuel => rfl
  | raised f => rfl
  | value result =>
    simp only [Outcome.andThen, conclusion]
    cases conclude text result <;> rfl

/-- **Parsing is deriving and concluding.** A resolved rule that has an ending at the start
of the text parses it to what is concluded from that ending. -/
theorem parse_endsWith {r : Rule} {label : String} (hfree : s.RunsFreely text r.node)
    (hl : r.node.label = .ok label) (hres : r.node.Resolved s.slots)
    (hd : Derives s.slots text (.node r.node (.num 0)) e) :
    EndsWith (fun fuel => (s.parse fuel r text).1) (e >>= conclusion text) := by
  obtain ⟨message, hparse⟩ := parse_fst (s := s) hl text
  have hrun : EndsWith (fun fuel => ((s.note message).run fuel r text (.int 0)).1) e :=
    run_endsWith (hfree.note message) hres hd
  simp only [hparse]
  exact hrun.andThen (conclusion text)

/-- The check leaves the slots and the journal as they are, and complains of the grammar or of an
integer with too many digits. -/
theorem check_cases (s : Session) (r : Rule) :
    (∃ f, (∀ failure, f ≠ .parse failure) ∧ Build.check r s = (.error f, s)) ∨
      ∃ s', Build.check r s = (.ok (), s') ∧ s'.slots = s.slots ∧ s'.journal = s.journal := by
  rw [Build.check_eq]
  split
  · exact .inr ⟨s, rfl, rfl, rfl⟩
  · split
    · split
      · exact .inl ⟨_, fun _ => Fault.noConfusion, rfl⟩
      · rename_i f hf
        exact .inl ⟨f, (FaultsOver.label _).ne_parse hf, rfl⟩
    · exact .inr ⟨s.markPassed r, rfl, rfl, rfl⟩
    · exact .inr ⟨s, rfl, rfl, rfl⟩

/-- Parsing stops before the rule is run, with a fault that is no parse failure, or concludes from
a run at the start of the text. -/
theorem parse_cases (s : Session) (r : Rule) (text : List Char) :
    (∃ f, (∀ failure, f ≠ .parse failure) ∧ ∀ fuel, (s.parse fuel r text).1 = .raised f) ∨
      ∃ j : Journal, j.trace = s.journal.trace ∧ ∀ fuel, (s.parse fuel r text).1 =
        (evaluateIn fuel s.slots text r.node (.num 0) j).1.andThen (conclusion text) := by
  cases hl : r.node.label with
  | error f =>
    refine .inl ⟨f, (FaultsOver.label _).ne_parse hl, fun fuel => ?_⟩
    unfold parse
    rw [hl]
  | ok label =>
    obtain ⟨message, hparse⟩ := parse_fst (s := s) hl text
    have hstart : startOf (.int 0) = .ok (.num 0) := rfl
    rcases check_cases (s.note message) r with ⟨f, hf, hcheck⟩ | ⟨s', hcheck, hslots, hjournal⟩
    · refine .inl ⟨f, hf, fun fuel => ?_⟩
      rw [hparse, run, hstart]
      simp only [hcheck]
      rfl
    · refine .inr ⟨s'.journal, by rw [hjournal, trace_note], fun fuel => ?_⟩
      rw [hparse, run, hstart]
      simp only [hcheck, evaluate, hslots]
      rfl

/-- Tokens are those of a success that uses up the text. -/
theorem parse_value {r : Rule} {fuel : Nat} {tokens : List Value}
    (h : (s.parse fuel r text).1 = .value tokens) :
    ∃ q, Derives s.slots text (.node r.node (.num 0)) (.ok (.success tokens q)) ∧
      q.toInt = text.length := by
  rcases s.parse_cases r text with ⟨f, -, hparse⟩ | ⟨j, -, hparse⟩
  · rw [hparse] at h
    cases h
  · rw [hparse] at h
    cases hrun : (evaluateIn fuel s.slots text r.node (.num 0) j).1 with
    | outOfFuel =>
      rw [hrun] at h
      cases h
    | raised f =>
      rw [hrun] at h
      cases h
    | value result =>
      rw [hrun] at h
      have hconcluded : conclusion text result = .ok tokens := Outcome.ofExcept_injective h
      rcases conclusion_cases text result with ⟨ts, q, rfl, hq⟩ | ⟨failure, hfailure⟩
      · rw [conclusion_success hq] at hconcluded
        cases hconcluded
        exact ⟨q, Machine.exists_evaluate_eq_iff.mp ⟨fuel, evaluateIn_value hrun⟩, hq⟩
      · rw [hfailure] at hconcluded
        cases hconcluded

end Session

/-! ### A journal that takes nothing -/

/-- A journal that has not been configured takes nothing. -/
theorem Journal.write_of_disabled {j : Journal} (h : j.enabled = false) (level : Level)
    (speaker message : String) : j.write level speaker message = j := by
  unfold Journal.write
  rw [h]
  rfl

theorem Machine.State.report_of_disabled {j : Journal} (h : j.enabled = false) {st : Machine.State}
    {j' : Journal} (hreport : st.report j = .ok j') : j' = j := by
  unfold Machine.State.report at hreport
  split at hreport
  · cases hreport
    rfl
  · rcases Machine.Record.report_cases hreport with ⟨t, -, rfl⟩ | ⟨-, rfl⟩
    · exact Journal.write_of_disabled h ..
    · rfl

theorem evaluateIn_of_disabled {j : Journal} (h : j.enabled = false) (fuel : Nat) (slots : Slots)
    (text : List Char) (n : Node) (pos : Integral) :
    (evaluateIn fuel slots text n pos j).2 = j := by
  have htraced (fuel : Nat) (st : Machine.State) :
      (Machine.runTraced slots text fuel st j).2 = j := by
    induction fuel generalizing st with
    | zero => rfl
    | succ fuel ih =>
      rw [Machine.runTraced]
      split
      · rfl
      · rename_i hreport
        rw [Machine.State.report_of_disabled h hreport]
        split
        · exact ih _
        · rfl
        · rfl
  unfold evaluateIn
  split
  · exact htraced fuel _
  · rfl

namespace Session

theorem note_of_disabled {s : Session} (h : s.journal.enabled = false) (message : String) :
    s.note message = s := by
  unfold note
  rw [Journal.write_of_disabled h]

theorem run_of_disabled {s : Session} (h : s.journal.enabled = false) (fuel : Nat) (r : Rule)
    (text : List Char) : (s.run fuel r text (.int 0)).2.journal = s.journal := by
  have hstart : startOf (.int 0) = .ok (.num 0) := rfl
  unfold run
  rw [hstart]
  rcases s.check_cases r with ⟨f, -, hcheck⟩ | ⟨s', hcheck, -, hjournal⟩
  · simp only [hcheck]
  · simp only [hcheck, evaluate]
    rw [hjournal]
    exact evaluateIn_of_disabled h ..

/-- Parsing writes nothing if logging has not been configured. -/
theorem parse_of_disabled {s : Session} (h : s.journal.enabled = false) (fuel : Nat) (r : Rule)
    (text : List Char) : (s.parse fuel r text).2.journal = s.journal := by
  unfold parse
  split
  · rfl
  · rename_i label _
    have hrun := run_of_disabled h fuel r text
    simp only [note_of_disabled h]
    split
    · exact hrun
    · exact hrun
    · split
      · exact hrun
      · rw [note_of_disabled (by rw [hrun, h])]
        exact hrun

end Session

/-! ### The value of a text -/

namespace Grammar

/-- The first of the tokens, which is the value of a text. -/
def firstOf : List Value → Except Fault Value
  | v :: _ => .ok v
  | [] => .error .listIndex

theorem firstToken_eq (o : Outcome (List Value)) : firstToken o = o.andThen firstOf := by
  rcases o with (_ | ⟨v, vs⟩) | f | _ <;> rfl

/-- What a grammar makes of a text whose ending with it is derived. -/
theorem firstToken_endsWith {b : Build Rule} {s s' : Session} {r : Rule} {label : String}
    {text : List Char} {e : Finish} (hb : b s = (.ok r, s'))
    (hfree : s'.RunsFreely text r.node) (hl : r.node.label = .ok label)
    (hres : r.node.Resolved s'.slots)
    (hd : Derives s'.slots text (.node r.node (.num 0)) e) :
    EndsWith (fun fuel => firstToken (parseWith fuel (b s) text).1)
      (e >>= fun result => Session.conclusion text result >>= firstOf) := by
  have hparse (fuel : Nat) : parseWith fuel (b s) text = s'.parse fuel r text := by
    rw [hb]
    rfl
  simp only [firstToken_eq, hparse]
  have hend := (Session.parse_endsWith hfree hl hres hd).andThen firstOf
  cases e <;> exact hend

end Grammar

end LeafGrammar
