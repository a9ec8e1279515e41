import LeafGrammar.Pattern.Matcher

/-!
# What patterns match

The matcher lists the places where a match can end, the most wanted first, and a match
is what the first of them says. For the forms of patterns that the bundled grammars are
made of, that first place is known: a character of a set; the longest run of characters
of a set; a run and perhaps a separator with another run; a quoted text.

`Pattern.Reads p lang more` puts it without places. Whatever `p` matches is a word of the
language `lang` at the start of the input, and `p` matches a word of `lang` in front of
any text that does not start with a character of `more`, that is, with one that could
make the word longer.
-/

namespace LeafGrammar.Pattern

/-- The text does not start with a character of the set. -/
def Stops (more : Char → Bool) (u : List Char) : Prop := ∀ c ∈ u.head?, more c = false

theorem stops_nil (more : Char → Bool) : Stops more [] := by simp [Stops]

theorem stops_cons {more : Char → Bool} {c : Char} {u : List Char} :
    Stops more (c :: u) ↔ more c = false := by simp [Stops]

theorem stops_dropWhile (more : Char → Bool) (u : List Char) : Stops more (u.dropWhile more) := by
  induction u with
  | nil => exact stops_nil more
  | cons c u ih =>
    cases hc : more c with
    | true => simpa [List.dropWhile_cons, hc] using ih
    | false => simp [hc, stops_cons]

/-! ### Cursors -/

namespace Cursor

/-- Past the text `w`, which leaves `rest`. -/
def past (c : Cursor) (w rest : List Char) : Cursor :=
  { c with pos := c.pos + w.length, passed := w.reverse ++ c.passed, rest := rest }

@[simp] theorem past_pos (c : Cursor) (w rest : List Char) :
    (c.past w rest).pos = c.pos + w.length := rfl

@[simp] theorem past_rest (c : Cursor) (w rest : List Char) : (c.past w rest).rest = rest := rfl

@[simp] theorem past_groups (c : Cursor) (w rest : List Char) :
    (c.past w rest).groups = c.groups := rfl

@[simp] theorem past_kept (c : Cursor) (w rest : List Char) :
    (c.past w rest).kept = c.kept := rfl

@[simp] theorem past_nil (c : Cursor) : c.past [] c.rest = c := rfl

theorem passing_eq_past (c : Cursor) (x : Char) (rest : List Char) :
    c.passing x rest = c.past [x] rest := rfl

@[simp] theorem past_past (c : Cursor) (w v u u' : List Char) :
    (c.past w u').past v u = c.past (w ++ v) u := by
  simp [past, Nat.add_assoc]

end Cursor

/-! ### The first place -/

/-- Leaving out places that were listed before does not change the first one. -/
@[simp] theorem head?_distinct (cs : List Cursor) : (distinct cs).head? = cs.head? := by
  match cs with
  | [] => rfl
  | [c] => rfl
  | c :: d :: cs => simp [distinct, distinctFrom, Places.has, Places.none]

namespace Regex

/-- Where the most wanted match ends. -/
def first? (r : Regex) (c : Cursor) : Option Cursor := (r.ends c).head?

theorem found?_eq (r : Regex) (input : List Char) :
    r.found? input = (r.first? (.start input)).map fun c => (input.take c.pos).drop c.kept := rfl

variable {set : CharSet} {k : Caseness} {c : Cursor}

theorem ends_one_cons {x : Char} {u : List Char} (hc : c.rest = x :: u)
    (hx : set.contains k x = true) :
    (one set k).ends c = [c.past [x] u] := by
  simp [ends, hc, hx, Cursor.passing_eq_past]

theorem ends_one_of_stops (hc : Stops (set.contains k) c.rest) : (one set k).ends c = [] := by
  unfold ends
  split
  · rfl
  · rename_i x u hu
    rw [hu, stops_cons] at hc
    simp [hc]

theorem ends_seq (a b : Regex) (c : Cursor) :
    (seq a b).ends c = distinct ((a.ends c).flatMap b.ends) := by
  rw [ends]

/-- A sequence goes on from the place that its first part wants most, if it can. -/
theorem first?_seq {a b : Regex} {d e : Cursor} (ha : a.first? c = some d)
    (hb : b.first? d = some e) : (seq a b).first? c = some e := by
  unfold first? at *
  obtain ⟨ds, hds⟩ := List.head?_eq_some_iff.mp ha
  simp [ends_seq, hds, hb]

theorem ends_seq_of_nil {a b : Regex} (ha : a.ends c = []) : (seq a b).ends c = [] := by
  simp [ends_seq, ha, distinct]

/-! ### Runs -/

/-- The farthest place of a loop over a set is behind the run of its characters, if that is
long enough. -/
theorem spans_eq (inSet : Char → Bool) (u : List Char) (hu : Stops inSet u) :
    ∀ (w : List Char) (least : Nat) (c : Cursor) (acc : List Cursor), (∀ x ∈ w, inSet x = true) →
      c.rest = w ++ u → least ≤ w.length →
        ∃ l, spans inSet (w ++ u) least none c acc = c.past w u :: l := by
  intro w
  induction w with
  | nil =>
    intro least c acc _ hc hl
    have hzero : least = 0 := by simpa using hl
    have hpast : c.past [] u = c := by simp only [List.nil_append] at hc; rw [← hc, Cursor.past_nil]
    cases u with
    | nil => exact ⟨acc, by simp [spans, hzero, hpast]⟩
    | cons x u => exact ⟨acc, by simp [spans, hzero, hpast, stops_cons.mp hu]⟩
  | cons x w ih =>
    intro least c acc hw hc hl
    have hx : inSet x = true := hw x List.mem_cons_self
    have hw' : ∀ y ∈ w, inSet y = true := fun y hy => hw y (List.mem_cons_of_mem x hy)
    simp only [List.length_cons] at hl
    obtain ⟨l, hl⟩ := ih (least - 1) (c.passing x (w ++ u)) (if least = 0 then c :: acc else acc) hw'
      rfl (by omega)
    refine ⟨l, ?_⟩
    simp only [List.cons_append, spans, hx, Option.map_none, reduceCtorEq, decide_false,
      Bool.false_or, Bool.not_true, Bool.false_eq_true, if_false]
    rw [hl, Cursor.passing_eq_past, Cursor.past_past]
    rfl

theorem first?_run {u w : List Char} {least : Nat} (hc : c.rest = w ++ u)
    (hw : ∀ x ∈ w, set.contains k x = true) (hu : Stops (set.contains k) u) (hl : least ≤ w.length) :
    (loop (one set k) least none .greedy).first? c = some (c.past w u) := by
  obtain ⟨l, hl⟩ := spans_eq (set.contains k) u hu w least c [] hw hc hl
  simp [first?, ends, hc, hl]

/-- Without a single character of the set there is no run. -/
theorem ends_run_of_stops (hc : Stops (set.contains k) c.rest) :
    (loop (one set k) 1 none .greedy).ends c = [] := by
  unfold ends
  cases hu : c.rest with
  | nil => rfl
  | cons x u =>
    rw [hu, stops_cons] at hc
    simp [spans, hc]

end Regex

/-! ### Optional parts -/

namespace Trail

/-- Trying only adds places: those that were found before stay the more wanted ones. -/
def Extends (t t' : Trail) : Prop := ∃ l, t'.stops = l ++ t.stops

theorem Extends.refl (t : Trail) : t.Extends t := ⟨[], rfl⟩

theorem Extends.trans {t t' t'' : Trail} (h : t.Extends t') (h' : t'.Extends t'') :
    t.Extends t'' := by
  obtain ⟨l, hl⟩ := h
  obtain ⟨l', hl'⟩ := h'
  exact ⟨l' ++ l, by rw [hl', hl, List.append_assoc]⟩

theorem stop_extends (t : Trail) (c : Cursor) : t.Extends (t.stop c) := by
  unfold stop
  split
  · exact .refl t
  · exact ⟨[c], rfl⟩

theorem enter_extends {endless : Bool} {go : Cursor → Trail → Trail}
    (hgo : ∀ c t, Extends t (go c t)) (t : Trail) (c : Cursor) :
    t.Extends (t.enter endless go c) := by
  by_cases h : (t.tried.headD .none).has c = true
  · simp only [enter, h, if_true]
    exact .refl t
  · simp only [enter, h]
    cases endless with
    | true => exact hgo c _
    | false => exact hgo c { t with tried := t.tried.tail }

/-- What a round from `c` does with a place that its body comes to. -/
def visit (endless : Bool) (go : Cursor → Trail → Trail) (c : Cursor) (t : Trail) (c' : Cursor) :
    Trail :=
  if c'.isAt c then t.stop c' else t.enter endless go c'

theorem visit_extends {endless : Bool} {go : Cursor → Trail → Trail}
    (hgo : ∀ c t, Extends t (go c t)) (c : Cursor) (t : Trail) (c' : Cursor) :
    t.Extends (t.visit endless go c c') := by
  unfold visit
  split
  · exact t.stop_extends c'
  · exact enter_extends hgo t c'

theorem foldl_extends {f : Trail → Cursor → Trail} (hf : ∀ (t : Trail) c, t.Extends (f t c)) :
    ∀ (cs : List Cursor) (t : Trail), t.Extends (cs.foldl f t)
  | [], t => .refl t
  | c :: cs, t => (hf t c).trans (foldl_extends hf cs (f t c))

theorem enter_fresh {t : Trail} {c : Cursor} (go : Cursor → Trail → Trail)
    (h : (t.tried.headD .none).has c = false) :
    t.enter true go c = go c { t with tried := [(t.tried.headD .none).adding c] } := by
  simp only [enter, h]
  rfl

theorem stops_enter_new (go : Cursor → Trail → Trail) (c : Cursor) :
    (Trail.new.enter false go c).stops = (go c ⟨[], .none, []⟩).stops := by
  simp [enter, Trail.new, Places.has, Places.none]

/-- Nothing has been found yet. -/
theorem stop_stops_of_new {t : Trail} {c : Cursor} (hs : t.stopped = .none) (h : t.stops = []) :
    (t.stop c).stops = [c] := by
  simp [stop, hs, h, Places.has, Places.none]

end Trail

theorem optionalRounds_extends (body : Cursor → List Cursor) (reluctant endless : Bool) :
    ∀ (rounds : Nat) (c : Cursor) (t : Trail),
      t.Extends (optionalRounds body reluctant endless rounds c t) := by
  intro rounds
  induction rounds with
  | zero => intro c t; exact t.stop_extends c
  | succ rounds ih =>
    intro c t
    have hfold : ∀ (t : Trail) c', t.Extends (t.visit endless _ c c') := Trail.visit_extends ih c
    unfold optionalRounds
    cases reluctant with
    | true => exact (t.stop_extends c).trans (Trail.foldl_extends hfold _ _)
    | false => exact (Trail.foldl_extends hfold _ _).trans (Trail.stop_extends _ c)

/-- A round of a greedy loop visits the places that the body comes to, and stops here. -/
theorem optionalRounds_succ (body : Cursor → List Cursor) (endless : Bool) (rounds : Nat)
    (c : Cursor) (t : Trail) :
    optionalRounds body false endless (rounds + 1) c t =
      ((body c).foldl (Trail.visit endless (optionalRounds body false endless rounds) c) t).stop c :=
  rfl

/-- A loop of one round at most is its body, or nothing where the body has no match. -/
theorem head?_loopEnds_optional (body : Cursor → List Cursor) (plenty : Nat) (c : Cursor) :
    (loopEnds body 0 (some 1) false plenty c).head? = some ((body c).head?.getD c) := by
  show (Trail.new.enter false (optionalRounds body false false 1) c).stops.reverse.head? = _
  rw [List.head?_reverse, Trail.stops_enter_new, optionalRounds_succ]
  cases body c with
  | nil => simp [Trail.stop, Places.has, Places.none]
  | cons d ds =>
    -- the first place that the body wants is the first that is found
    let step : Trail → Cursor → Trail := Trail.visit false (optionalRounds body false false 0) c
    have hstep : (step ⟨[], .none, []⟩ d).stops = [d] := by
      show (Trail.visit _ _ _ _ _).stops = _
      unfold Trail.visit
      split
      · exact Trail.stop_stops_of_new rfl rfl
      · simp [Trail.enter, Places.has, Places.none, optionalRounds, Trail.stop]
    have hext : ∀ (t : Trail) c', t.Extends (step t c') :=
      Trail.visit_extends (optionalRounds_extends body false false 0) c
    obtain ⟨l, hl⟩ := (Trail.foldl_extends hext ds (step ⟨[], .none, []⟩ d)).trans
      (Trail.stop_extends _ c)
    rw [hstep] at hl
    rw [List.foldl_cons, hl]
    simp

namespace Regex

/-- An optional sequence is the sequence where that has a match. -/
theorem first?_optional (a b : Regex) (c : Cursor) :
    (loop (seq a b) 0 (some 1) .greedy).first? c = some (((seq a b).first? c).getD c) := by
  rw [first?, ends, head?_loopEnds_optional]
  · rfl
  · exact fun _ _ => nofun

end Regex

/-! ### Loops that have no choice -/

namespace Places

theorem testBit_adding {p : Places} {c : Cursor} (hc : c.groups = []) (i : Nat) :
    (p.adding c).bits.testBit i = (p.bits.testBit i || decide (c.pos = i)) := by
  simp [adding, hc, Nat.one_shiftLeft, Nat.testBit_two_pow]

theorem has_eq {p : Places} {c : Cursor} (hc : c.groups = []) :
    p.has c = p.bits.testBit c.pos := by
  simp [has, hc]

end Places

/-- The cursor lies before all the places that were found, and is not one of them: it is found
too. -/
theorem Trail.stop_before {t : Trail} {c : Cursor} (hg : c.groups = [])
    (hs : t.stopped.bits.testBit c.pos = false)
    (hle : ∀ i, t.stopped.bits.testBit i = true → c.pos ≤ i) :
    (t.stop c).stops = c :: t.stops ∧
      ∀ i, (t.stop c).stopped.bits.testBit i = true → c.pos ≤ i := by
  simp only [Trail.stop, Places.has_eq hg, hs, Bool.false_eq_true, if_false]
  refine ⟨trivial, fun i hi => ?_⟩
  rw [Places.testBit_adding hg, Bool.or_eq_true, decide_eq_true_iff] at hi
  rcases hi with hi | hi
  · exact hle i hi
  · omega

/-- A body that has one match at most, and that moves on with it. -/
structure Stepwise (body : Cursor → List Cursor) (next : Cursor → Option Cursor) : Prop where
  ends : ∀ c, body c = (next c).toList
  pos_lt : ∀ c d, next c = some d → c.pos < d.pos
  groups_eq : ∀ c d, next c = some d → d.groups = c.groups

/-- The places that a body without choice comes to, in `rounds` rounds at most. -/
def stepsFrom (next : Cursor → Option Cursor) : Nat → Cursor → List Cursor
  | 0, c => [c]
  | rounds + 1, c => c :: ((next c).map (stepsFrom next rounds)).getD []

variable {body : Cursor → List Cursor} {next : Cursor → Option Cursor}

/-- Rounds without choice find every place on their way, the last one first. What has been
tried lies behind the cursor and what has been found lies before it, so no place is taken
for one that was there already. -/
theorem Stepwise.optionalRounds_eq (h : Stepwise body next) :
    ∀ (rounds : Nat) (c : Cursor) (t : Trail), c.groups = [] → t.stops = [] → t.stopped = .none →
      (∀ i, (t.tried.headD .none).bits.testBit i = true → i ≤ c.pos) →
        (optionalRounds body false true rounds c t).stops = stepsFrom next rounds c ∧
          ∀ i, (optionalRounds body false true rounds c t).stopped.bits.testBit i = true →
            c.pos ≤ i := by
  intro rounds
  induction rounds with
  | zero =>
    intro c t hg ht hs _
    have := t.stop_before hg (by simp [hs, Places.none]) (by simp [hs, Places.none])
    rw [ht] at this
    exact this
  | succ rounds ih =>
    intro c t hg ht hs hbelow
    cases hn : next c with
    | none =>
      have := t.stop_before hg (by simp [hs, Places.none]) (by simp [hs, Places.none])
      rw [ht] at this
      simpa [optionalRounds, stepsFrom, h.ends, hn] using this
    | some d =>
      have hlt := h.pos_lt c d hn
      have hgd : d.groups = [] := (h.groups_eq c d hn).trans hg
      have hat : d.isAt c = false := by simp [Cursor.isAt]; omega
      have hfresh : (t.tried.headD .none).has d = false := by
        rw [Places.has_eq hgd]
        cases hb : (t.tried.headD .none).bits.testBit d.pos with
        | false => rfl
        | true => have := hbelow _ hb; omega
      let t' : Trail := { t with tried := [(t.tried.headD .none).adding d] }
      have hrun : optionalRounds body false true (rounds + 1) c t =
          (optionalRounds body false true rounds d t').stop c := by
        simp only [optionalRounds_succ, h.ends, hn, Option.toList_some, List.foldl_cons,
          List.foldl_nil, Trail.visit, hat, Bool.false_eq_true, if_false]
        rw [Trail.enter_fresh _ hfresh]
      have hbelow' : ∀ i, (t'.tried.headD .none).bits.testBit i = true → i ≤ d.pos := by
        intro i hi
        rw [List.headD_cons, Places.testBit_adding hgd, Bool.or_eq_true, decide_eq_true_iff] at hi
        rcases hi with hi | hi
        · have := hbelow i hi
          omega
        · omega
      obtain ⟨hstops, habove⟩ := ih d t' hgd ht hs hbelow'
      have hunstopped : (optionalRounds body false true rounds d t').stopped.bits.testBit c.pos =
          false := by
        cases hb : (optionalRounds body false true rounds d t').stopped.bits.testBit c.pos with
        | false => rfl
        | true => have := habove _ hb; omega
      obtain ⟨hstops', habove'⟩ := Trail.stop_before hg hunstopped fun i hi => by
        have := habove i hi
        omega
      rw [hrun, hstops', hstops]
      exact ⟨by simp [stepsFrom, hn], habove'⟩

theorem Stepwise.loopEnds_eq (h : Stepwise body next) (plenty : Nat) {c : Cursor}
    (hc : c.groups = []) :
    loopEnds body 0 none false plenty c = (stepsFrom next plenty c).reverse := by
  have hnew : (Trail.new.tried.headD .none).has c = false := by
    simp [Trail.new, Places.has, Places.none]
  obtain ⟨hstops, -⟩ := h.optionalRounds_eq plenty c
    { Trail.new with tried := [(Trail.new.tried.headD .none).adding c] } hc rfl rfl (by
      intro i hi
      rw [List.headD_cons, Places.testBit_adding hc, Bool.or_eq_true, decide_eq_true_iff] at hi
      rcases hi with hi | hi
      · simp [Trail.new, Places.none] at hi
      · omega)
  have henter := Trail.enter_fresh (optionalRounds body false true plenty) hnew
  rw [← hstops]
  exact congrArg (fun t : Trail => t.stops.reverse) henter

end LeafGrammar.Pattern
