import LeafGrammar.Engine.Trace
import LeafGrammar.Proofs.Journal.Messages

/-!
# What cannot be written

Showing a value, a result, a label or a record faults for one reason: an integer that stands in
it has more digits than can be written. `FaultsOver P x` says so of a computation `x`, where `P`
tells which integers stand in what it shows.
-/

namespace LeafGrammar

/-! ### Integers with too many digits -/

/-- The integer has more digits than can be written. -/
def Number.IsLong (n : Int) : Prop := digitLimit < digitCount n.natAbs

theorem Number.isLong_iff {n : Int} : IsLong n ↔ isWritable n = false := by
  rw [IsLong, isWritable, decide_eq_false_iff_not, Nat.not_le]

/-- The integer stands somewhere in the value. -/
inductive Value.Holds (n : Int) : Value → Prop where
  | int : Holds n (.int n)
  | list {v : Value} {vs : List Value} : v ∈ vs → Holds n v → Holds n (.list vs)
  | tuple {v : Value} {vs : List Value} : v ∈ vs → Holds n v → Holds n (.tuple vs)
  | key {k v : Value} {es : List (Value × Value)} : (k, v) ∈ es → Holds n k → Holds n (.dict es)
  | entry {k v : Value} {es : List (Value × Value)} : (k, v) ∈ es → Holds n v → Holds n (.dict es)

/-- The integer stands in a token of the result, or is its offset. -/
def Result.Holds (n : Int) : Result → Prop
  | .success tokens pos => (∃ v ∈ tokens, v.Holds n) ∨ pos = .num n
  | .failure pos _ => pos = .num n

/-- The integer stands in the label of the node: it is a bound of a repetition. -/
def Node.LabelHolds (n : Int) : Node → Prop
  | .rep _ _ least most => least = .num n ∨ most = some (.num n)
  | _ => False

/-! ### Showing -/

/-- The computation faults, if at all, because an integer with the property is too long. -/
def FaultsOver {α : Type} (P : Int → Prop) (x : Except Fault α) : Prop :=
  ∀ f, x = .error f → f = .value .tooManyDigitsToShow ∧ ∃ n, Number.IsLong n ∧ P n

namespace FaultsOver

variable {α β : Type} {P Q : Int → Prop}

theorem ok (a : α) : FaultsOver P (.ok a : Except Fault α) := by
  rintro f ⟨⟩

theorem mono {x : Except Fault α} (hx : FaultsOver P x) (h : ∀ n, P n → Q n) : FaultsOver Q x := by
  intro f hf
  obtain ⟨hdigits, n, hn, hP⟩ := hx f hf
  exact ⟨hdigits, n, hn, h n hP⟩

theorem bind {x : Except Fault α} {k : α → Except Fault β} (hx : FaultsOver P x)
    (hk : ∀ a, FaultsOver P (k a)) : FaultsOver P (x >>= k) := by
  intro f hf
  cases x with
  | error g =>
    cases hf
    exact hx f rfl
  | ok a => exact hk a f hf

/-- So the fault is no parse failure. -/
theorem ne_parse {x : Except Fault α} {f : Fault} (hx : FaultsOver P x) (h : x = .error f)
    (failure : ParseFailure) : f ≠ .parse failure := by
  rw [(hx f h).1]
  exact Fault.noConfusion

theorem showInt (n : Int) : FaultsOver (· = n) (Number.showInt n) := by
  intro f hf
  unfold Number.showInt at hf
  split at hf
  · cases hf
  · rename_i hn
    cases hf
    exact ⟨rfl, n, Number.isLong_iff.mpr (Bool.eq_false_iff.mpr hn), rfl⟩

theorem integral (i : Integral) : FaultsOver (fun n => i = .num n) i.shown := by
  cases i with
  | num n => exact (showInt n).mono fun m hm => congrArg Integral.num hm.symm
  | truth b => exact ok _

mutual

theorem value : ∀ v : Value, FaultsOver (fun n => v.Holds n) v.shown
  | .null | .truth _ | .float _ | .nan _ | .text _ => by
    rw [Value.shown]
    exact ok _
  | .int n => by
    rw [Value.shown]
    exact (showInt n).mono fun m hm => hm ▸ .int
  | .list vs => by
    rw [Value.shown]
    refine ((values vs).mono ?_).bind fun _ => ok _
    rintro n ⟨v, hv, hn⟩
    exact .list hv hn
  | .tuple vs => by
    rw [Value.shown]
    refine ((values vs).mono ?_).bind fun parts => ?_
    · rintro n ⟨v, hv, hn⟩
      exact .tuple hv hn
    · split <;> exact ok _
  | .dict es => by
    rw [Value.shown]
    refine ((entries es).mono ?_).bind fun _ => ok _
    rintro n ⟨⟨k, v⟩, he, hn | hn⟩
    · exact .key he hn
    · exact .entry he hn

theorem values : ∀ vs : List Value, FaultsOver (fun n => ∃ v ∈ vs, v.Holds n) (Value.shownAll vs)
  | [] => by
    rw [Value.shownAll]
    exact ok _
  | v :: rest => by
    rw [Value.shownAll]
    refine ((value v).mono fun n hn => ⟨v, List.mem_cons_self, hn⟩).bind fun _ => ?_
    refine ((values rest).mono ?_).bind fun _ => ok _
    rintro n ⟨w, hw, hn⟩
    exact ⟨w, List.mem_cons_of_mem _ hw, hn⟩

theorem entries : ∀ es : List (Value × Value),
    FaultsOver (fun n => ∃ e ∈ es, e.1.Holds n ∨ e.2.Holds n) (Value.shownEntries es)
  | [] => by
    rw [Value.shownEntries]
    exact ok _
  | (k, v) :: rest => by
    rw [Value.shownEntries]
    refine ((value k).mono fun n hn => ⟨(k, v), List.mem_cons_self, .inl hn⟩).bind fun _ => ?_
    refine ((value v).mono fun n hn => ⟨(k, v), List.mem_cons_self, .inr hn⟩).bind fun _ => ?_
    refine ((entries rest).mono ?_).bind fun _ => ok _
    rintro n ⟨e, he, hn⟩
    exact ⟨e, List.mem_cons_of_mem _ he, hn⟩

end

theorem result (r : Result) : FaultsOver (fun n => r.Holds n) r.shown := by
  cases r with
  | success tokens pos =>
    refine ((value (.list tokens)).mono ?_).bind fun _ => ?_
    · rintro n (_ | ⟨hv, hn⟩)
      exact .inl ⟨_, hv, hn⟩
    · exact ((integral pos).mono fun n hn => .inr hn).bind fun _ => ok _
  | failure pos c => exact (integral pos).bind fun _ => ok _

theorem label (n : Node) : FaultsOver (fun k => n.LabelHolds k) n.label := by
  cases n with
  | rep id child least most =>
    have hleast : FaultsOver (fun k => (Node.rep id child least most).LabelHolds k) least.shown :=
      (integral least).mono fun k hk => .inl hk
    unfold Node.label
    cases most with
    | none => exact hleast.bind fun _ => ok _
    | some m =>
      have hmost : FaultsOver (fun k => (Node.rep id child least (some m)).LabelHolds k) m.shown :=
        (integral m).mono fun k hk => .inr (congrArg some hk)
      exact hmost.bind fun _ => hleast.bind fun _ => ok _
  | _ => exact ok _

end FaultsOver

/-! ### What has been shown -/

/-- A computation in two steps that gives a result has made both. -/
theorem exists_of_bind_eq_ok {α β : Type} {x : Except Fault α} {k : α → Except Fault β} {b : β}
    (h : x >>= k = .ok b) : ∃ a, x = .ok a ∧ k a = .ok b := by
  cases x with
  | error f => cases h
  | ok a => exact ⟨a, rfl, h⟩

theorem Integral.isShowable_of_shown {i : Integral} {t : String} (h : i.shown = .ok t) :
    i.isShowable = true := by
  cases i with
  | truth b => rfl
  | num n =>
    by_cases hn : Number.isWritable n = true
    · exact hn
    · rw [Integral.shown, Number.showInt, if_neg hn] at h
      cases h

theorem Integral.exists_isLong {i : Integral} (h : i.isShowable = false) :
    ∃ n, Number.IsLong n ∧ i = .num n := by
  cases i with
  | truth b => cases h
  | num n => exact ⟨n, Number.isLong_iff.mpr h, rfl⟩

/-! ### Records -/

namespace Machine

/-- The integer stands in the record: in the label of the node that is visited, or in the
result. -/
def Record.Holds (n : Int) : Record → Prop
  | .visit node _ => node.LabelHolds n
  | .result r => r.Holds n

/-- The integer is the offset of the visit that is recorded. -/
def Record.IsAt (n : Int) : Record → Prop
  | .visit _ pos => pos = .num n
  | .result _ => False

/-- The integer stands in what the state reports. -/
def State.Writes (n : Int) (s : State) : Prop := ∃ record ∈ s.record?, record.Holds n

/-- The integer is the offset of the visit that the state reports. -/
def State.VisitsAt (n : Int) (s : State) : Prop := ∃ record ∈ s.record?, record.IsAt n

theorem State.VisitsAt.exists_visit {n : Int} {s : State} (h : s.VisitsAt n) :
    ∃ node stack, s = .visit node (.num n) stack := by
  obtain ⟨record, hrecord, hat⟩ := h
  match s, hrecord with
  | .visit node pos stack, rfl => exact ⟨node, stack, congrArg (State.visit node · stack) hat⟩
  | .give r (frame :: stack), rfl => exact hat.elim

end Machine

namespace FaultsOver

open Machine

theorem text (record : Record) :
    FaultsOver (fun n => record.Holds n ∨ record.IsAt n) record.text := by
  cases record with
  | visit node pos =>
    refine ((label node).mono fun n hn => .inl hn).bind fun _ => ?_
    exact ((integral pos).mono fun n hn => .inr hn).bind fun _ => ok _
  | result r => exact ((result r).mono fun n hn => .inl hn).bind fun _ => ok _

/-- The label of a visited node is made out in any case, its offset only if some handler takes the
record. -/
theorem record (record : Record) (j : Journal) :
    FaultsOver (fun n => record.Holds n ∨ j.wants .trace = true ∧ record.IsAt n)
      (record.report j) := by
  have rest : FaultsOver (fun n => record.Holds n ∨ j.wants .trace = true ∧ record.IsAt n)
      (if j.wants .trace then do return j.write .trace "evaluate" (← record.text) else pure j) := by
    split
    · rename_i hwants
      exact ((text record).mono fun n hn => hn.imp_right fun hat => ⟨hwants, hat⟩).bind fun _ => ok _
    · exact ok _
  cases record with
  | visit node pos => exact ((label node).mono fun n hn => .inl hn).bind fun _ => rest
  | result r => exact rest

/-- **Why a state cannot be reported**: an integer is too long that stands in a label or a result,
or is the offset of a visit that some handler wants to know of. -/
theorem report (st : State) (j : Journal) :
    FaultsOver (fun n => st.Writes n ∨ j.wants .trace = true ∧ st.VisitsAt n) (st.report j) := by
  unfold State.report
  split
  · exact ok _
  · rename_i r hr
    refine (record r j).mono ?_
    rintro n (hn | ⟨hwants, hn⟩)
    · exact .inl ⟨r, hr, hn⟩
    · exact .inr ⟨hwants, r, hr, hn⟩

end FaultsOver

/-! ### The journal of a run -/

namespace Machine

/-- A record that has been reported was written, or no handler takes it. -/
theorem Record.report_cases {record : Record} {j j' : Journal} (h : record.report j = .ok j') :
    (∃ t, record.text = .ok t ∧ j' = j.write .trace "evaluate" t) ∨
      j.wants .trace = false ∧ j' = j := by
  have rest (h : (if j.wants .trace then do return j.write .trace "evaluate" (← record.text)
      else pure j) = Except.ok j') : (∃ t, record.text = .ok t ∧ j' = j.write .trace "evaluate" t) ∨
        j.wants .trace = false ∧ j' = j := by
    split at h
    · obtain ⟨t, ht, h⟩ := exists_of_bind_eq_ok h
      exact .inl ⟨t, ht, (Except.ok.inj h).symm⟩
    · rename_i hwants
      exact .inr ⟨Bool.eq_false_iff.mpr hwants, (Except.ok.inj h).symm⟩
  cases record with
  | visit node pos =>
    obtain ⟨_, -, h⟩ := exists_of_bind_eq_ok h
    exact rest h
  | result r => exact rest h

theorem State.journal_of_report {s : State} {j j' : Journal} (h : s.report j = .ok j') :
    ∃ written, j' = { j with written := written } := by
  unfold State.report at h
  split at h
  · cases h
    exact ⟨j.written, rfl⟩
  · rcases Record.report_cases h with ⟨t, -, rfl⟩ | ⟨-, rfl⟩
    · exact Journal.write_eq ..
    · exact ⟨j'.written, rfl⟩

theorem runTraced_journal (slots : Slots) (text : List Char) (fuel : Nat) (s : State)
    (j : Journal) : ∃ written, (runTraced slots text fuel s j).2 = { j with written := written } := by
  induction fuel generalizing s j with
  | zero => exact ⟨j.written, rfl⟩
  | succ fuel ih =>
    rw [runTraced]
    split
    · exact ⟨j.written, rfl⟩
    · rename_i j' hreport
      obtain ⟨written, rfl⟩ := State.journal_of_report hreport
      split
      · exact ih _ _
      · exact ⟨written, rfl⟩
      · exact ⟨written, rfl⟩

end Machine

/-- A run adds lines to the journal and changes nothing else of it. -/
theorem evaluateIn_journal (fuel : Nat) (slots : Slots) (text : List Char) (root : Node)
    (pos : Integral) (j : Journal) :
    ∃ written, (evaluateIn fuel slots text root pos j).2 = { j with written := written } := by
  unfold evaluateIn
  split
  · exact Machine.runTraced_journal slots text fuel _ j
  · exact ⟨j.written, rfl⟩

end LeafGrammar
