import LeafGrammar.Proofs.Engine.Tracing
import LeafGrammar.Proofs.Session.Calls

/-!
# Tracing is transparent

Switching the trace on changes what is written and nothing else. Whatever handlers there are, a
rule is run to the same ending with a trace and without, and the rules, slots and verdicts of the
session are the same after both (`Session.tracing_transparent`). There is one exception: the run
with a trace stops at a label or a result that holds an integer with too many digits to be
written. A node may also be evaluated directly, and then that integer can be the offset that is
asked for; `Session.run` takes no such offset.

All this is about values as they are here: how deep a value may be nested before an interpreter
refuses to show it is left out of `Value.shown`, and a token cannot bring a shown form of its own.
-/

namespace LeafGrammar

namespace Session

/-- The session with the trace switched on or off. The handlers stay. -/
def withTrace (s : Session) (on : Bool) : Session :=
  { s with journal := { s.journal with trace := on } }

/-- The two sessions have the same rules, slots and verdicts. -/
structure SameHeap (s s' : Session) : Prop where
  rules : s.rules = s'.rules
  slots : s.slots = s'.slots
  passed : s.passed = s'.passed

/-- The check looks at rules, slots and verdicts only, and leaves the journal alone. -/
theorem check_withJournal (s : Session) (j : Journal) (r : Rule) :
    Build.check r { s with journal := j } =
      ((Build.check r s).1, { (Build.check r s).2 with journal := j }) := by
  have hpassed : hasPassed { s with journal := j } r = s.hasPassed r := rfl
  have hsearch : verdict { s with journal := j } r.node = s.verdict r.node := rfl
  rw [Build.check_eq, Build.check_eq, hpassed, hsearch]
  split
  · rfl
  · split
    · split <;> rfl
    · rfl
    · rfl

/-- So it comes to the same verdict, and to the same session but for the trace. -/
theorem check_withTrace (s : Session) (on : Bool) (r : Rule) :
    Build.check r (s.withTrace on) =
      ((Build.check r s).1, (Build.check r s).2.withTrace on) := by
  obtain ⟨passed, hpassed⟩ := Build.check_snd r s
  rw [withTrace, check_withJournal, withTrace, hpassed]

/-- An offset that a run accepts can be written. -/
theorem isShowable_of_startOf {v : Value} {pos : Integral} (h : startOf v = .ok pos) :
    pos.isShowable = true := by
  obtain ⟨shown, hv, h⟩ := exists_of_bind_eq_ok h
  split at h
  · rename_i n hn
    split at h
    · cases h
      obtain ⟨t, ht⟩ := Build.shown_of_integral? hv hn
      exact Integral.isShowable_of_shown ht
    · cases h
  · cases h

theorem not_isLong_of_startOf {v : Value} {n : Int} (h : startOf v = .ok (.num n)) :
    ¬ Number.IsLong n := by
  intro hlong
  have hwritable : Number.isWritable n = true := isShowable_of_startOf h
  rw [Number.isLong_iff.mp hlong] at hwritable
  cases hwritable

/-- With a trace, evaluating the node stops in the state, where something cannot be written. -/
def EvaluationStopsAt (s : Session) (text : List Char) (root : Node) (pos : Integral)
    (st : Machine.State) : Prop :=
  Machine.StopsAt s.slots text (.visit root pos []) (s.withTrace true).journal st

theorem evaluate_withTrace_cases (s : Session) (fuel : Nat) (text : List Char) (root : Node)
    (pos : Integral) :
    ((s.withTrace true).evaluate fuel root text pos).1 =
        ((s.withTrace false).evaluate fuel root text pos).1 ∨
      ((s.withTrace true).evaluate fuel root text pos).1 =
          .raised (.value .tooManyDigitsToShow) ∧
        ∃ st n, s.EvaluationStopsAt text root pos st ∧ Number.IsLong n ∧
          (st.Writes n ∨ pos = .num n) := by
  have hplain : ((s.withTrace false).evaluate fuel root text pos).1 =
      LeafGrammar.evaluate fuel s.slots text root pos := rfl
  rw [hplain]
  rcases evaluateIn_cases fuel s.slots text root pos (s.withTrace true).journal with
    hsame | ⟨hraised, st, hst⟩
  · exact .inl hsame
  · obtain ⟨n, hlong, hn⟩ := hst.exists_long
    exact .inr ⟨hraised, st, n, hst, hlong, hn⟩

/-- **Tracing is transparent.** With a trace and without, in whatever journal, evaluating a node and
running a rule end with the same and leave the same rules, slots and verdicts behind, unless the run
with a trace stops at something that cannot be written: a label or a result that holds an integer
with too many digits. Where a node is evaluated directly this can be the offset that is asked for. -/
theorem tracing_transparent (s : Session) (fuel : Nat) (text : List Char) :
    (∀ (root : Node) (pos : Integral),
      let traced := (s.withTrace true).evaluate fuel root text pos
      let plain := (s.withTrace false).evaluate fuel root text pos
      traced.2.SameHeap plain.2 ∧
        (traced.1 = plain.1 ∨
          traced.1 = .raised (.value .tooManyDigitsToShow) ∧
            ∃ st n, s.EvaluationStopsAt text root pos st ∧ Number.IsLong n ∧
              (st.Writes n ∨ pos = .num n))) ∧
    (∀ (r : Rule) (start : Value),
      let traced := (s.withTrace true).run fuel r text start
      let plain := (s.withTrace false).run fuel r text start
      traced.2.SameHeap plain.2 ∧
        (traced.1 = plain.1 ∨
          traced.1 = .raised (.value .tooManyDigitsToShow) ∧
            ∃ pos st n, startOf start = .ok pos ∧ s.EvaluationStopsAt text r.node pos st ∧
              Number.IsLong n ∧ st.Writes n)) := by
  constructor
  · intro root pos
    exact ⟨⟨rfl, rfl, rfl⟩, evaluate_withTrace_cases s fuel text root pos⟩
  · intro r start
    unfold run
    cases hstart : startOf start with
    | error f => exact ⟨⟨rfl, rfl, rfl⟩, .inl rfl⟩
    | ok pos =>
      obtain ⟨passed, hpassed⟩ := Build.check_snd r s
      rw [check_withTrace, check_withTrace]
      generalize Build.check r s = checked at hpassed ⊢
      obtain ⟨verdict, s'⟩ := checked
      obtain rfl : s' = _ := hpassed
      cases verdict with
      | error f => exact ⟨⟨rfl, rfl, rfl⟩, .inl rfl⟩
      | ok _ =>
        refine ⟨⟨rfl, rfl, rfl⟩, ?_⟩
        rcases evaluate_withTrace_cases { s with passed := passed } fuel text r.node pos with
          hsame | ⟨hraised, st, n, hst, hlong, hn | rfl⟩
        · exact .inl hsame
        · exact .inr ⟨hraised, pos, st, n, rfl, hst, hlong, hn⟩
        · exact absurd hlong (not_isLong_of_startOf hstart)

end Session

end LeafGrammar
