import LeafGrammar.Proofs.Engine.Offsets
import LeafGrammar.Proofs.Engine.Refinement
import LeafGrammar.Proofs.Engine.Visits

/-!
# What a trace can change

A run with a trace reports each state before its move and then makes the move that the run
without makes. So the two can part in one way only: a record cannot be written
(`Machine.runTraced_cases`), and then it holds an integer with too many digits.

The integer stands in the label of a node or in a result that is handed on. It may also be the
offset at which a node is visited, but only where the run was started: any other offset that the
machine comes to is that of a result, and the record of the result has been written before
(`Machine.StopsAt.exists_long`).
-/

namespace LeafGrammar

open Relation

namespace Machine

variable {slots : Slots} {text : List Char}

/-! ### Two runs side by side -/

/-- The states that a run with a trace comes to, each with the journal as it is by then. -/
def Reporting (slots : Slots) (text : List Char) : State × Journal → State × Journal → Prop :=
  ReflTransGen fun x y => x.1.report x.2 = .ok y.2 ∧ step slots text x.1 = .next y.1

/-- A run with a trace that starts in `s` comes to `st` and cannot report it. -/
def StopsAt (slots : Slots) (text : List Char) (s : State) (j : Journal) (st : State) : Prop :=
  ∃ j' f, Reporting slots text (s, j) (st, j') ∧ st.report j' = .error f

/-- **The two runs part only where something cannot be written.** -/
theorem runTraced_cases (fuel : Nat) (s : State) (j : Journal) :
    (runTraced slots text fuel s j).1 = run slots text fuel s ∨
      (runTraced slots text fuel s j).1 = .raised (.value .tooManyDigitsToShow) ∧
        ∃ st, StopsAt slots text s j st := by
  induction fuel generalizing s j with
  | zero => exact .inl rfl
  | succ fuel ih =>
    rw [runTraced, run]
    cases hreport : s.report j with
    | error f =>
      obtain ⟨rfl, -⟩ := FaultsOver.report s j f hreport
      exact .inr ⟨rfl, s, j, _, .refl, hreport⟩
    | ok j' =>
      cases hstep : step slots text s with
      | done r => exact .inl rfl
      | raised f => exact .inl rfl
      | next s' =>
        rcases ih s' j' with hsame | ⟨hraised, st, j'', f, hon, hst⟩
        · exact .inl hsame
        · exact .inr ⟨hraised, st, j'', f, .head ⟨hreport, hstep⟩ hon, hst⟩

/-! ### Offsets that have been written before -/

/-- The offset that a frame goes back to can be written. -/
def Frame.IsShowable : Frame → Prop
  | .choiceLeft _ pos => pos.isShowable = true
  | .rep _ _ _ _ cur _ => cur.isShowable = true
  | _ => True

/-- The offsets of a state can be written. A result that is being handed on is not looked at: it
is reported next. -/
def State.IsShowable : State → Prop
  | .visit _ pos stack => pos.isShowable = true ∧ ∀ f ∈ stack, f.IsShowable
  | .give _ stack => ∀ f ∈ stack, f.IsShowable

/-- The offsets of the next state, if there is one, can be written. -/
def Move.IsShowable : Move → Prop
  | .next s => s.IsShowable
  | .done _ | .raised _ => True

theorem finishRep_isShowable (least : Integral) (tokens : List Value) (cur : Integral)
    (count : Nat) {stack : List Frame} (hs : ∀ f ∈ stack, f.IsShowable) :
    (finishRep least tokens cur count stack).IsShowable := by
  unfold finishRep
  split
  · split
    · exact hs
    · trivial
  · exact hs

theorem continueRep_isShowable (child : Node) (least : Integral) (most : Option Integral)
    (tokens : List Value) {cur : Integral} (count : Nat) {stack : List Frame}
    (hcur : cur.isShowable = true) (hs : ∀ f ∈ stack, f.IsShowable) :
    (continueRep child least most tokens cur count stack).IsShowable := by
  unfold continueRep
  split
  · exact ⟨hcur, by simpa using ⟨hcur, hs⟩⟩
  · exact finishRep_isShowable _ _ _ _ hs

theorem settleRep_isShowable (least : Integral) (most : Option Integral) (all round : List Value)
    (cur : Integral) (count : Nat) {stack : List Frame} (hs : ∀ f ∈ stack, f.IsShowable) :
    (settleRep least most all round cur count stack).IsShowable := by
  unfold settleRep
  split
  · exact hs
  · split
    · exact finishRep_isShowable _ _ _ _ hs
    · trivial

theorem enter_isShowable (node : Node) {pos : Integral} {stack : List Frame}
    (hpos : pos.isShowable = true) (hs : ∀ f ∈ stack, f.IsShowable) :
    (enter text node pos stack).IsShowable := by
  cases node with
  | leaf id p => exact hs
  | empty id => exact hs
  | choice id l r => exact ⟨hpos, by simpa using ⟨hpos, hs⟩⟩
  | rep id child least most => exact continueRep_isShowable _ _ _ _ _ hpos hs
  | _ => exact ⟨hpos, by simpa [Frame.IsShowable] using hs⟩

theorem resume_isShowable {frame : Frame} {r : Result} {stack : List Frame}
    (hr : r.offset.isShowable = true) (hf : frame.IsShowable) (hs : ∀ f ∈ stack, f.IsShowable) :
    (resume slots frame r stack).IsShowable := by
  cases r with
  | success tokens pos =>
    cases frame with
    | seqLeft right => exact ⟨hr, by simpa [Frame.IsShowable] using hs⟩
    | rep child least most before cur count =>
      unfold resume
      simp only
      split
      · exact settleRep_isShowable _ _ _ _ _ _ hs
      · exact continueRep_isShowable _ _ _ _ _ hr hs
    | map action =>
      unfold resume
      simp only
      split
      · exact hs
      · trivial
    | spliceBase slot =>
      unfold resume
      simp only
      split
      · trivial
      · exact ⟨hr, by simpa [Frame.IsShowable] using hs⟩
    | _ => exact hs
  | failure pos c =>
    cases frame with
    | choiceLeft right start => exact ⟨hf, by simpa [Frame.IsShowable] using hs⟩
    | rep child least most before cur count => exact finishRep_isShowable _ _ _ _ hs
    | _ => exact hs

theorem step_isShowable {s : State} (hs : s.IsShowable)
    (hr : ∀ r frame stack, s = .give r (frame :: stack) → r.offset.isShowable = true) :
    (step slots text s).IsShowable := by
  match s with
  | .visit node pos stack => exact enter_isShowable node hs.1 hs.2
  | .give r [] => trivial
  | .give r (frame :: stack) =>
    have hframe : frame.IsShowable := hs frame List.mem_cons_self
    exact resume_isShowable (hr r frame stack rfl) hframe fun f hf => hs f (List.mem_cons_of_mem _ hf)

end Machine

/-! ### What a record leaves behind -/

theorem Result.isShowable_of_shown {r : Result} {t : String} (h : r.shown = .ok t) :
    r.offset.isShowable = true := by
  cases r with
  | success tokens pos =>
    obtain ⟨_, -, h⟩ := exists_of_bind_eq_ok h
    obtain ⟨_, hpos, -⟩ := exists_of_bind_eq_ok h
    exact Integral.isShowable_of_shown hpos
  | failure pos c =>
    obtain ⟨_, hpos, -⟩ := exists_of_bind_eq_ok h
    exact Integral.isShowable_of_shown hpos

namespace Machine

/-- The offset of a result that has been reported can be written. -/
theorem State.isShowable_of_report {r : Result} {frame : Frame} {stack : List Frame}
    {j j' : Journal} (h : (State.give r (frame :: stack)).report j = .ok j')
    (hwants : j.wants .trace = true) : r.offset.isShowable = true := by
  have hrecord : (Record.result r).report j = .ok j' := h
  rcases Record.report_cases hrecord with ⟨t, ht, -⟩ | ⟨hnot, -⟩
  · obtain ⟨_, hr, -⟩ := exists_of_bind_eq_ok ht
    exact Result.isShowable_of_shown hr
  · rw [hwants] at hnot
    cases hnot

/-! ### Along a run -/

theorem Reporting.wants_eq {x y : State × Journal} (h : Reporting slots text x y) :
    y.2.wants .trace = x.2.wants .trace := by
  induction h with
  | refl => rfl
  | tail _ hstep ih =>
    obtain ⟨written, hj⟩ := State.journal_of_report hstep.1
    rw [hj]
    exact ih

/-- Where a handler takes the trace, every offset that the run comes back to has been written. -/
theorem Reporting.isShowable {x y : State × Journal} (h : Reporting slots text x y)
    (hwants : x.2.wants .trace = true) (hx : x.1.IsShowable) : y.1.IsShowable := by
  induction h with
  | refl => exact hx
  | @tail y z hxy hstep ih =>
    have hy : y.2.wants .trace = true := by rw [Reporting.wants_eq hxy, hwants]
    have hmove : (step slots text y.1).IsShowable := by
      refine step_isShowable ih fun r frame stack hgive => ?_
      have hreport := hstep.1
      rw [hgive] at hreport
      exact State.isShowable_of_report hreport hy
    rw [hstep.2] at hmove
    exact hmove

/-- **Why a run with a trace stops**: an integer with too many digits stands in the label or the
result that it is about to report, or is the offset that it was started from. -/
theorem StopsAt.exists_long {root : Node} {pos : Integral} {j : Journal} {st : State}
    (h : StopsAt slots text (.visit root pos []) j st) :
    ∃ n, Number.IsLong n ∧ (st.Writes n ∨ pos = .num n) := by
  obtain ⟨j', f, hon, hst⟩ := h
  obtain ⟨-, n, hlong, hn | ⟨hwants, hat⟩⟩ := FaultsOver.report st j' f hst
  · exact ⟨n, hlong, .inl hn⟩
  cases hpos : pos.isShowable with
  | false =>
    obtain ⟨m, hm, rfl⟩ := Integral.exists_isLong hpos
    exact ⟨m, hm, .inr rfl⟩
  | true =>
    have hshow : st.IsShowable :=
      hon.isShowable (by rwa [hon.wants_eq] at hwants) ⟨hpos, fun _ hf => nomatch hf⟩
    obtain ⟨node, stack, rfl⟩ := hat.exists_visit
    have hwritable : Number.isWritable n = true := hshow.1
    rw [Number.isLong_iff.mp hlong] at hwritable
    cases hwritable

end Machine

/-! ### Any rule -/

/-- With a trace or without, a node is evaluated to the same ending, unless the run with a trace
comes to something that cannot be written. -/
theorem evaluateIn_cases (fuel : Nat) (slots : Slots) (text : List Char) (root : Node)
    (pos : Integral) (j : Journal) :
    (evaluateIn fuel slots text root pos j).1 = evaluate fuel slots text root pos ∨
      (evaluateIn fuel slots text root pos j).1 = .raised (.value .tooManyDigitsToShow) ∧
        ∃ st, Machine.StopsAt slots text (.visit root pos []) j st := by
  unfold evaluateIn
  split
  · exact Machine.runTraced_cases fuel _ j
  · exact .inl rfl

/-- Given moves enough the node ends with `e`, in every journal. A trace is all that may keep a run
from that: it stops the run where it comes to an integer with too many digits to be written. -/
def Node.RunsTo (slots : Slots) (text : List Char) (n : Node) (pos : Integral) (e : Finish) :
    Prop :=
  ∃ moves, ∀ fuel, moves ≤ fuel → ∀ j : Journal,
    (evaluateIn fuel slots text n pos j).1 = .ofExcept e ∨
      j.trace = true ∧
        (evaluateIn fuel slots text n pos j).1 = .raised (.value .tooManyDigitsToShow)

/-- What a node runs to is what is derived. -/
theorem Node.runsTo_iff {slots : Slots} {text : List Char} {n : Node} {pos : Integral}
    {e : Finish} : n.RunsTo slots text pos e ↔ Derives slots text (.node n pos) e := by
  constructor
  · rintro ⟨moves, h⟩
    rcases h moves (Nat.le_refl _) (Journal.new false "WARNING") with hplain | ⟨htrace, -⟩
    · exact Machine.exists_evaluate_eq_iff.mp ⟨moves, hplain⟩
    · cases htrace
  · intro hd
    obtain ⟨moves, hmoves⟩ := Machine.exists_evaluate_eq_iff.mpr hd
    refine ⟨moves, fun fuel hfuel j => ?_⟩
    have hplain : evaluate fuel slots text n pos = .ofExcept e :=
      Machine.run_eq_ofExcept_iff.mpr ((Machine.run_eq_ofExcept_iff.mp hmoves).mono hfuel)
    cases htrace : j.trace with
    | false =>
      left
      rw [← hplain]
      simp [evaluateIn, htrace]
    | true =>
      rcases evaluateIn_cases fuel slots text n pos j with hsame | ⟨hraised, -⟩
      · exact .inl (hsame.trans hplain)
      · exact .inr ⟨rfl, hraised⟩

end LeafGrammar
