import LeafGrammar.Proofs.Engine.Likeness
import LeafGrammar.Proofs.Session.Parsing

/-!
# Running does not depend on what was called before

What a resolved rule does is decided by the nodes that it reaches, and no call changes these: a
filled slot is never filled again, and a rule below which every injection point is resolved reaches
no other slot. So it is run to the same ending in every later session (`Session.run_later`,
`Session.parse_later`), though other slots have been filled by then and its own run may have been
broken off before.
-/

namespace LeafGrammar

/-! ### Slots that are not looked at -/

/-- The slots are the same one, and it holds a resolved node. -/
def Slots.Settled (slots : Slots) (slot' slot : SlotId) : Prop :=
  slot' = slot ∧ ∃ target, slots.target? slot = some target ∧ target.Resolved slots

theorem Node.Resolved.alike {slots : Slots} {n : Node} (h : n.Resolved slots) :
    n.Alike slots.Settled n :=
  .of_points fun slot hslot => ⟨rfl, h.exists_target slot hslot⟩

theorem Slots.FilledIn.alike {slots slots' : Slots} (hs : slots.FilledIn slots') :
    slots'.Alike slots.Settled slots := by
  rintro slot _ ⟨rfl, target, ht, hres⟩
  rw [hs slot target ht, ht]
  exact .some hres.alike

/-- **A resolved node does not look at other slots**: whatever is filled in besides, it ends with
the same, after as many moves. -/
theorem evaluate_of_filledIn {slots slots' : Slots} {n : Node} (hs : slots.FilledIn slots')
    (hn : n.Resolved slots) (fuel : Nat) (text : List Char) (pos : Integral) :
    evaluate fuel slots' text n pos = evaluate fuel slots text n pos :=
  evaluate_eq_of_alike hs.alike hn.alike fuel text pos

namespace Session

/-! ### What running leaves behind -/

/-- Running changes nothing but the verdicts and the lines of the journal. -/
theorem run_snd (s : Session) (fuel : Nat) (r : Rule) (text : List Char) (pos : Value) :
    ∃ passed written, (s.run fuel r text pos).2 =
      { s with passed := passed, journal := { s.journal with written := written } } := by
  obtain ⟨passed, hpassed⟩ := Build.check_snd r s
  unfold run
  split
  · exact ⟨s.passed, s.journal.written, rfl⟩
  · split
    · rename_i hcheck
      rw [hcheck] at hpassed
      exact ⟨passed, s.journal.written, hpassed⟩
    · rename_i start _ _ s' hcheck
      rw [hcheck] at hpassed
      obtain rfl : s' = _ := hpassed
      obtain ⟨written, hj⟩ := evaluateIn_journal fuel s.slots text r.node start s.journal
      exact ⟨passed, written, by simp only [evaluate, hj]⟩

/-- So does parsing. -/
theorem parse_snd (s : Session) (fuel : Nat) (r : Rule) (text : List Char) :
    ∃ passed written, (s.parse fuel r text).2 =
      { s with passed := passed, journal := { s.journal with written := written } } := by
  unfold parse
  split
  · exact ⟨s.passed, s.journal.written, rfl⟩
  · rename_i label _
    generalize "parse " ++ label ++ " over " ++ toString text.length ++ " chars" = message
    obtain ⟨written, hnote⟩ := s.journal.write_eq .debug "parse" message
    obtain ⟨passed, written', hrun⟩ := (s.note message).run_snd fuel r text (.int 0)
    simp only [note, hnote] at hrun ⊢
    generalize run _ fuel r text (.int 0) = ran at hrun ⊢
    obtain ⟨outcome, s'⟩ := ran
    obtain rfl : s' = _ := hrun
    cases outcome with
    | outOfFuel => exact ⟨passed, written', rfl⟩
    | raised f => exact ⟨passed, written', rfl⟩
    | value result =>
      simp only
      cases conclude text result with
      | ok tokens => exact ⟨passed, written', rfl⟩
      | error failed =>
        obtain ⟨failure, message'⟩ := failed
        obtain ⟨written'', hwritten⟩ :=
          Journal.write_eq { s.journal with written := written' } .debug "parse" message'
        exact ⟨passed, written'', by simp only [hwritten]⟩

/-! ### What running gives -/

/-- Without a trace a resolved rule is run from the offset that is asked for, if this is one. -/
theorem run_fst {s : Session} {r : Rule} (ht : s.journal.trace = false)
    (hres : r.node.Resolved s.slots) (fuel : Nat) (text : List Char) (pos : Value) :
    (s.run fuel r text pos).1 =
      match startOf pos with
      | .error f => .raised f
      | .ok start => LeafGrammar.evaluate fuel s.slots text r.node start := by
  unfold run
  cases startOf pos with
  | error f => rfl
  | ok start =>
    obtain ⟨s', hcheck, hslots, hjournal⟩ := Build.check_of_resolved hres
    simp only [hcheck, evaluate, evaluateIn, hslots, hjournal, ht]
    rfl

variable {s s' : Session} {r r' : Rule}

/-- Two rules that are evaluated alike are run alike. -/
theorem run_congr (ht : s.journal.trace = false) (ht' : s'.journal.trace = false)
    (hres : r.node.Resolved s.slots) (hres' : r'.node.Resolved s'.slots)
    (heval : ∀ fuel text pos, LeafGrammar.evaluate fuel s'.slots text r'.node pos =
      LeafGrammar.evaluate fuel s.slots text r.node pos) (fuel : Nat) (text : List Char)
    (pos : Value) : (s'.run fuel r' text pos).1 = (s.run fuel r text pos).1 := by
  rw [run_fst ht' hres', run_fst ht hres]
  simp only [heval]

/-- Two rules that are evaluated alike and have the same label are parsed alike. -/
theorem parse_congr (ht : s.journal.trace = false) (ht' : s'.journal.trace = false)
    (hres : r.node.Resolved s.slots) (hres' : r'.node.Resolved s'.slots)
    (hlabel : r'.node.label = r.node.label)
    (heval : ∀ fuel text pos, LeafGrammar.evaluate fuel s'.slots text r'.node pos =
      LeafGrammar.evaluate fuel s.slots text r.node pos) (fuel : Nat) (text : List Char) :
    (s'.parse fuel r' text).1 = (s.parse fuel r text).1 := by
  cases hl : r.node.label with
  | error f =>
    have hl' : r'.node.label = .error f := hlabel.trans hl
    rw [parse, parse, hl, hl']
  | ok label =>
    have hl' : r'.node.label = .ok label := hlabel.trans hl
    obtain ⟨message, hparse⟩ := parse_fst (s := s) hl text
    obtain ⟨message', hparse'⟩ := parse_fst (s := s') hl' text
    have hrun : ((s'.note message').run fuel r' text (.int 0)).1 =
        ((s.note message).run fuel r text (.int 0)).1 := by
      have hn : r.node.Resolved (s.note message).slots := hres
      have hn' : r'.node.Resolved (s'.note message').slots := hres'
      exact run_congr ((trace_note s _).trans ht) ((trace_note s' _).trans ht') hn hn' heval fuel
        text (.int 0)
    rw [hparse, hparse', hrun]

/-! ### In every later session -/

theorem Changes.trace_eq (h : s.Changes s') : s'.journal.trace = s.journal.trace := by
  obtain ⟨written, hj⟩ := h.journal_eq
  rw [hj]

/-- A rule that the check passes is resolved. -/
theorem Reachable.resolved (hs : s.Reachable) (hr : r ∈ s.rules)
    (hcheck : (Build.check r s).1 = .ok ()) : r.node.Resolved s.slots := by
  rcases hs.wf.check_fst hs.passedResolved hr with ⟨hres, -⟩ | ⟨-, label, hfault⟩
  · exact hres
  · rw [hcheck] at hfault
    cases hfault

/-- **A rule that has passed the check is run alike ever after.** -/
theorem run_later (hs : s.Reachable) (ht : s.journal.trace = false) (hr : r ∈ s.rules)
    (hcheck : (Build.check r s).1 = .ok ()) (h : s.Later s') (fuel : Nat) (text : List Char)
    (pos : Value) : (s'.run fuel r text pos).1 = (s.run fuel r text pos).1 := by
  have hchanges := h.changes hs.wf
  have hres := hs.resolved hr hcheck
  exact run_congr ht (hchanges.trace_eq.trans ht) hres (hres.mono hchanges.filledIn)
    (evaluate_of_filledIn hchanges.filledIn hres) fuel text pos

/-- **It is parsed alike, too.** -/
theorem parse_later (hs : s.Reachable) (ht : s.journal.trace = false) (hr : r ∈ s.rules)
    (hcheck : (Build.check r s).1 = .ok ()) (h : s.Later s') (fuel : Nat) (text : List Char) :
    (s'.parse fuel r text).1 = (s.parse fuel r text).1 := by
  have hchanges := h.changes hs.wf
  have hres := hs.resolved hr hcheck
  exact parse_congr ht (hchanges.trace_eq.trans ht) hres (hres.mono hchanges.filledIn) rfl
    (evaluate_of_filledIn hchanges.filledIn hres) fuel text

end Session

end LeafGrammar
