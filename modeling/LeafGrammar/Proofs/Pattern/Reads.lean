import LeafGrammar.Proofs.Pattern.Matching

/-!
# Patterns as lexical rules

What the patterns of the bundled grammars read. Each form of pattern has its language and
the characters that could make a word of it longer; in front of any other character, and
at the end of the input, every word of the language is read as it is.
-/

namespace LeafGrammar

/-- The pattern reads the words of `lang`: it matches nothing else, and it matches any of
them in front of a text that does not start with a character of `more`. -/
structure Pattern.Reads (p : Pattern) (lang : List Char → Prop) (more : Char → Bool) : Prop where
  sound : ∀ {input w : List Char}, p.matched? input = some w → lang w ∧ w <+: input
  complete : ∀ {w u : List Char}, lang w → Pattern.Stops more u → p.matched? (w ++ u) = some w

namespace Pattern

variable {source : String} {root : Regex} {w u : List Char}

theorem matched?_of_first?
    (h : root.first? (.start (w ++ u)) = some ((Cursor.start (w ++ u)).past w u)) :
    (ofRegex source root).matched? (w ++ u) = some w := by
  have hfound : root.found? (w ++ u) = some w := by
    rw [Regex.found?_eq, h]
    simp [Cursor.start]
  simpa [ofRegex, ofExpression, Expression.matched?] using hfound

theorem matched?_of_ends_nil {input : List Char} (h : root.ends (.start input) = []) :
    (ofRegex source root).matched? input = none := by
  simp [ofRegex, ofExpression, Expression.matched?, Regex.found?, h]

/-- It is enough to know the match of every input. -/
theorem Reads.of_matches {p : Pattern} {lang : List Char → Prop} {more : Char → Bool}
    (complete : ∀ {w u : List Char}, lang w → Stops more u → p.matched? (w ++ u) = some w)
    (total : ∀ input, p.matched? input = none ∨
      ∃ w u, input = w ++ u ∧ lang w ∧ p.matched? input = some w) : Reads p lang more := by
  refine ⟨fun {input v} h => ?_, complete⟩
  rcases total input with hnone | ⟨w, u, rfl, hw, hsome⟩
  · rw [hnone] at h
    cases h
  · rw [hsome] at h
    cases h
    exact ⟨hw, u, rfl⟩

theorem Reads.congr {p : Pattern} {lang lang' : List Char → Prop} {more : Char → Bool}
    (h : Reads p lang more) (hiff : ∀ w, lang w ↔ lang' w) : Reads p lang' more :=
  ⟨fun hm => ⟨(hiff _).mp (h.sound hm).1, (h.sound hm).2⟩,
    fun hw hu => h.complete ((hiff _).mpr hw) hu⟩

/-- Every text is a run of characters of a set and a rest that does not start with one. -/
theorem exists_run (f : Char → Bool) (v : List Char) :
    ∃ w u, v = w ++ u ∧ (∀ c ∈ w, f c = true) ∧ Stops f u := by
  refine ⟨v.takeWhile f, v.dropWhile f, List.takeWhile_append_dropWhile.symm, ?_, stops_dropWhile f v⟩
  intro c hc
  exact List.all_eq_true.mp List.all_takeWhile c hc

theorem exists_cons_of_not_stops {f : Char → Bool} {v : List Char} (h : ¬ Stops f v) :
    ∃ c u, v = c :: u ∧ f c = true := by
  cases v with
  | nil => exact absurd (stops_nil f) h
  | cons c u => exact ⟨c, u, rfl, by simpa [stops_cons] using h⟩

/-! ### One character -/

/-- A single character of the set. -/
def IsSingle (f : Char → Bool) (w : List Char) : Prop := ∃ c, f c = true ∧ w = [c]

theorem reads_one (set : CharSet) (k : Caseness) :
    Reads (ofRegex source (.one set k)) (IsSingle (set.contains k)) fun _ => false := by
  have hone (x : Char) (u : List Char) (hx : set.contains k x = true) :
      (ofRegex source (.one set k)).matched? ([x] ++ u) = some [x] :=
    matched?_of_first? (by rw [Regex.first?, Regex.ends_one_cons rfl hx]; rfl)
  refine .of_matches ?_ fun input => ?_
  · rintro w u ⟨x, hx, rfl⟩ -
    exact hone x u hx
  · by_cases hs : Stops (set.contains k) input
    · exact .inl (matched?_of_ends_nil (Regex.ends_one_of_stops hs))
    · obtain ⟨x, u, rfl, hx⟩ := exists_cons_of_not_stops hs
      exact .inr ⟨[x], u, rfl, ⟨x, hx, rfl⟩, hone x u hx⟩

/-! ### Runs -/

/-- One or more characters of the set. -/
def IsRun (f : Char → Bool) (w : List Char) : Prop := w ≠ [] ∧ ∀ c ∈ w, f c = true

theorem IsRun.one_le_length {f : Char → Bool} (h : IsRun f w) : 1 ≤ w.length :=
  List.length_pos_iff.mpr h.1

/-- Every text starts with a run of the set, or with no character of it. -/
theorem exists_isRun {f : Char → Bool} {v : List Char} (h : ¬ Stops f v) :
    ∃ w u, v = w ++ u ∧ IsRun f w ∧ Stops f u := by
  obtain ⟨w, u, rfl, hw, hu⟩ := exists_run f v
  refine ⟨w, u, rfl, ⟨?_, hw⟩, hu⟩
  rintro rfl
  exact h hu

theorem reads_run (set : CharSet) (k : Caseness) :
    Reads (ofRegex source (.loop (.one set k) 1 none .greedy)) (IsRun (set.contains k))
      (set.contains k) := by
  have complete {w u : List Char} (hw : IsRun (set.contains k) w) (hu : Stops (set.contains k) u) :
      (ofRegex source (.loop (.one set k) 1 none .greedy)).matched? (w ++ u) = some w :=
    matched?_of_first? (Regex.first?_run rfl hw.2 hu hw.one_le_length)
  refine .of_matches complete fun input => ?_
  by_cases hs : Stops (set.contains k) input
  · exact .inl (matched?_of_ends_nil (Regex.ends_run_of_stops hs))
  · obtain ⟨w, u, rfl, hw, hu⟩ := exists_isRun hs
    exact .inr ⟨w, u, rfl, hw, complete hw hu⟩

/-- A character of the first set and then any number of the second. -/
def IsHeaded (f g : Char → Bool) (w : List Char) : Prop :=
  ∃ c v, w = c :: v ∧ f c = true ∧ ∀ x ∈ v, g x = true

theorem reads_headed (head tail : CharSet) (k k' : Caseness) :
    Reads (ofRegex source (.seq (.one head k) (.loop (.one tail k') 0 none .greedy)))
      (IsHeaded (head.contains k) (tail.contains k')) (tail.contains k') := by
  have complete {w u : List Char} (hw : IsHeaded (head.contains k) (tail.contains k') w)
      (hu : Stops (tail.contains k') u) :
      (ofRegex source (.seq (.one head k) (.loop (.one tail k') 0 none .greedy))).matched? (w ++ u) =
        some w := by
    obtain ⟨c, v, rfl, hc, hv⟩ := hw
    have hhead : (Regex.one head k).first? (.start (c :: v ++ u)) =
        some ((Cursor.start (c :: v ++ u)).past [c] (v ++ u)) := by
      rw [Regex.first?, Regex.ends_one_cons rfl hc]
      rfl
    refine matched?_of_first? (Regex.first?_seq hhead ?_)
    rw [Regex.first?_run rfl hv hu (Nat.zero_le _), Cursor.past_past]
    rfl
  refine .of_matches complete fun input => ?_
  by_cases hs : Stops (head.contains k) input
  · exact .inl (matched?_of_ends_nil (Regex.ends_seq_of_nil (Regex.ends_one_of_stops hs)))
  · obtain ⟨c, v, rfl, hc⟩ := exists_cons_of_not_stops hs
    obtain ⟨w, u, rfl, hw, hu⟩ := exists_run (tail.contains k') v
    have hlang : IsHeaded (head.contains k) (tail.contains k') (c :: w) := ⟨c, w, rfl, hc, hw⟩
    exact .inr ⟨c :: w, u, rfl, hlang, complete hlang hu⟩

/-! ### A run with a fraction -/

/-- A run of the one set, perhaps with a character of the other and a further run. -/
def IsFraction (f point : Char → Bool) (w : List Char) : Prop :=
  IsRun f w ∨ ∃ a x b, w = a ++ x :: b ∧ IsRun f a ∧ point x = true ∧ IsRun f b

section Fraction

variable (set pointSet : CharSet) (k k' : Caseness)

/-- A run, and perhaps a point with a further run. -/
def fractionRegex : Regex :=
  .seq (.loop (.one set k) 1 none .greedy)
    (.loop (.seq (.one pointSet k') (.loop (.one set k) 1 none .greedy)) 0 (some 1) .greedy)

variable {set pointSet k k'}

/-- Without a point and a run behind the first run, this is all that is matched. -/
theorem first?_whole {c : Cursor} (hc : c.rest = w ++ u) (hw : IsRun (set.contains k) w)
    (hu : Stops (set.contains k) u)
    (hpoint : ∀ x v, u = x :: v → pointSet.contains k' x = true → Stops (set.contains k) v) :
    (fractionRegex set pointSet k k').first? c = some (c.past w u) := by
  refine Regex.first?_seq (Regex.first?_run hc hw.2 hu hw.one_le_length) ?_
  rw [Regex.first?_optional]
  by_cases hp : Stops (pointSet.contains k') u
  · have hnil : (Regex.one pointSet k').ends (c.past w u) = [] := Regex.ends_one_of_stops hp
    simp [Regex.first?, Regex.ends_seq_of_nil hnil]
  · obtain ⟨x, v, rfl, hx⟩ := exists_cons_of_not_stops hp
    have hnil : (Regex.seq (.one pointSet k') (.loop (.one set k) 1 none .greedy)).ends
        (c.past w (x :: v)) = [] := by
      have hrun : (Regex.loop (.one set k) 1 none .greedy).ends
          ((c.past w (x :: v)).past [x] v) = [] :=
        Regex.ends_run_of_stops (hpoint x v rfl hx)
      rw [Regex.ends_seq, Regex.ends_one_cons (Cursor.past_rest c w (x :: v)) hx]
      simp only [List.flatMap_cons, List.flatMap_nil, List.append_nil, hrun]
      rfl
    simp [Regex.first?, hnil]

/-- A point and a run behind the first run are matched with it. -/
theorem first?_fraction {c : Cursor} {a b : List Char} {x : Char} (hc : c.rest = a ++ x :: (b ++ u))
    (ha : IsRun (set.contains k) a) (hx : pointSet.contains k' x = true)
    (hx' : set.contains k x = false) (hb : IsRun (set.contains k) b)
    (hu : Stops (set.contains k) u) :
    (fractionRegex set pointSet k k').first? c = some (c.past (a ++ x :: b) u) := by
  have hrun : (Regex.loop (.one set k) 1 none .greedy).first? c = some (c.past a (x :: (b ++ u))) :=
    Regex.first?_run hc ha.2 (stops_cons.mpr hx') ha.one_le_length
  have hpoint : (Regex.one pointSet k').first? (c.past a (x :: (b ++ u))) =
      some ((c.past a (x :: (b ++ u))).past [x] (b ++ u)) := by
    rw [Regex.first?, Regex.ends_one_cons rfl hx]
    rfl
  have hmore : (Regex.loop (.one set k) 1 none .greedy).first?
      ((c.past a (x :: (b ++ u))).past [x] (b ++ u)) =
        some (((c.past a (x :: (b ++ u))).past [x] (b ++ u)).past b u) :=
    Regex.first?_run rfl hb.2 hu hb.one_le_length
  refine Regex.first?_seq hrun ?_
  rw [Regex.first?_optional, Regex.first?_seq hpoint hmore]
  simp

theorem reads_fraction (hdisjoint : ∀ x, pointSet.contains k' x = true → set.contains k x = false) :
    Reads (ofRegex source (fractionRegex set pointSet k k'))
      (IsFraction (set.contains k) (pointSet.contains k'))
      fun c => set.contains k c || pointSet.contains k' c := by
  have hfraction {a b u : List Char} {x : Char} (ha : IsRun (set.contains k) a)
      (hx : pointSet.contains k' x = true) (hb : IsRun (set.contains k) b)
      (hu : Stops (set.contains k) u) :
      (ofRegex source (fractionRegex set pointSet k k')).matched? ((a ++ x :: b) ++ u) =
        some (a ++ x :: b) :=
    matched?_of_first?
      (first?_fraction (by simp [Cursor.start]) ha hx (hdisjoint x hx) hb hu)
  refine .of_matches ?_ fun input => ?_
  · rintro w u (hw | ⟨a, x, b, rfl, ha, hx, hb⟩) hu
    · have hu' : Stops (set.contains k) u := fun c hc => (Bool.or_eq_false_iff.mp (hu c hc)).1
      refine matched?_of_first? (first?_whole rfl hw hu' ?_)
      rintro x v rfl hx
      exact absurd hx (by simpa using (Bool.or_eq_false_iff.mp (hu x rfl)).2)
    · exact hfraction ha hx hb fun c hc => (Bool.or_eq_false_iff.mp (hu c hc)).1
  · by_cases hs : Stops (set.contains k) input
    · exact .inl (matched?_of_ends_nil (Regex.ends_seq_of_nil (Regex.ends_run_of_stops hs)))
    · obtain ⟨a, v, rfl, ha, hv⟩ := exists_isRun hs
      by_cases hmore : ∀ x u, v = x :: u → pointSet.contains k' x = true → Stops (set.contains k) u
      · exact .inr ⟨a, v, rfl, .inl ha, matched?_of_first? (first?_whole rfl ha hv hmore)⟩
      · simp only [Classical.not_forall] at hmore
        obtain ⟨x, y, rfl, hx, hy⟩ := hmore
        obtain ⟨b, u, rfl, hb, hu⟩ := exists_isRun hy
        refine .inr ⟨a ++ x :: b, u, by simp, .inr ⟨a, x, b, rfl, ha, hx, hb⟩, ?_⟩
        rw [← hfraction ha hx hb hu]
        simp

end Fraction

/-! ### Sets of characters -/

/-- The characters of some items, or all others. -/
def CharSet.anyOf (items : List Item) (negated : Bool) : CharSet :=
  .union (items.map fun i => .item ⟨i, false⟩) negated

theorem contains_anyOf (items : List Item) (negated : Bool) (c : Char) :
    (CharSet.anyOf items negated).contains .exact c = (items.any (·.contains c) != negated) := by
  have hitems : (items.map fun i => Member.item ⟨i, false⟩).filterMap Member.item? =
      items.map fun i => ⟨i, false⟩ := by
    simp [List.filterMap_map, Function.comp_def, Member.item?]
  have hnone : (items.any fun _ => false) = false := by simp [List.any_eq_false]
  simp [CharSet.anyOf, CharSet.contains, Member.acceptAny, hitems, Signed.acceptAny,
    Signed.isOtherThan, Signed.accepts, Caseness.variants, Function.comp_def, hnone]

theorem contains_digit :
    (CharSet.item ⟨.named .digit false, false⟩).contains .exact = isDigit := by
  funext c
  simp [CharSet.contains, Signed.accepts, Caseness.variants, Item.contains, NamedClass.contains]

@[simp] theorem contains_ofChar (c d : Char) : (CharSet.ofChar d).contains .exact c = (c == d) := by
  simp [CharSet.ofChar, CharSet.contains, Signed.accepts, Caseness.variants, Item.contains]

@[simp] theorem contains_allButLineFeed (k : Caseness) (c : Char) :
    CharSet.allButLineFeed.contains k c = (c != '\n') := rfl

/-! ### Quoted texts -/

/-- What may stand between quotes: characters other than the quote and the backslash, and
pairs of a backslash and any character but a line feed. -/
inductive IsSpelling : List Char → Prop where
  | nil : IsSpelling []
  | plain {c : Char} {w : List Char} : c ≠ '"' → c ≠ '\\' → IsSpelling w → IsSpelling (c :: w)
  | pair {c : Char} {w : List Char} : c ≠ '\n' → IsSpelling w → IsSpelling ('\\' :: c :: w)

/-- A spelling between quotes. -/
def IsQuoted (w : List Char) : Prop := ∃ v, IsSpelling v ∧ w = '"' :: (v ++ ['"'])

/-- The first piece of a spelling, and what comes after it. -/
def piece? : List Char → Option (List Char × List Char)
  | '\\' :: c :: u => if c = '\n' then none else some (['\\', c], u)
  | c :: u => if c = '"' || c = '\\' then none else some ([c], u)
  | [] => none

theorem piece?_plain {c : Char} (hq : c ≠ '"') (hb : c ≠ '\\') (u : List Char) :
    piece? (c :: u) = some ([c], u) := by
  cases u <;> simp [piece?, hq, hb]

theorem piece?_pair {c : Char} (hc : c ≠ '\n') (u : List Char) :
    piece? ('\\' :: c :: u) = some (['\\', c], u) := by
  simp [piece?, hc]

theorem piece?_quote (u : List Char) : piece? ('"' :: u) = none := by
  cases u <;> simp [piece?]

/-- A piece in front of a spelling makes a spelling. -/
theorem piece?_eq_some {v w u : List Char} (h : piece? v = some (w, u)) :
    v = w ++ u ∧ 0 < w.length ∧ ∀ v', IsSpelling v' → IsSpelling (w ++ v') := by
  unfold piece? at h
  split at h
  · split at h
    · cases h
    · rename_i hc
      cases h
      exact ⟨rfl, by simp, fun v' hv' => .pair hc hv'⟩
  · split at h
    · cases h
    · rename_i hc
      simp only [Bool.or_eq_true, decide_eq_true_eq, not_or] at hc
      cases h
      exact ⟨rfl, by simp, fun v' hv' => .plain hc.1 hc.2 hv'⟩
  · cases h

/-- Every text starts with a longest spelling, which may be empty. -/
theorem exists_spelling (v : List Char) : ∃ w u, v = w ++ u ∧ IsSpelling w ∧ piece? u = none := by
  generalize hn : v.length = n
  induction n using Nat.strongRecOn generalizing v with
  | ind n ih =>
    cases hp : piece? v with
    | none => exact ⟨[], v, rfl, .nil, hp⟩
    | some p =>
      obtain ⟨a, rest⟩ := p
      obtain ⟨rfl, hpos, hcons⟩ := piece?_eq_some hp
      obtain ⟨w, u, rfl, hw, hu⟩ := ih rest.length (by simp at hn; omega) rest rfl
      exact ⟨a ++ w, u, by simp, hcons w hw, hu⟩

/-- A piece of a spelling. -/
def pieceRegex : Regex :=
  .alt (.one (.anyOf [.char '"', .char '\\'] true) .exact)
    (.alt (.seq (.one (.ofChar '\\') .exact) (.one .allButLineFeed .exact)) .never)

/-- Any number of pieces and the closing quote. -/
def closingRegex : Regex :=
  .seq (.loop pieceRegex 0 none .greedy) (.one (.ofChar '"') .exact)

/-- The cursor behind a piece. -/
def pastPiece? (c : Cursor) : Option Cursor := (piece? c.rest).map fun (w, u) => c.past w u

theorem ends_pieceRegex (c : Cursor) : pieceRegex.ends c = (pastPiece? c).toList := by
  match h : c.rest with
  | [] => simp [pieceRegex, Regex.ends, pastPiece?, h, piece?, distinct]
  | [x] =>
    by_cases hb : x = '\\'
    · subst hb
      simp [pieceRegex, Regex.ends, pastPiece?, h, piece?, distinct, contains_anyOf, Item.contains,
        Cursor.passing]
    · by_cases hq : x = '"' <;>
        simp [pieceRegex, Regex.ends, pastPiece?, h, piece?, distinct, contains_anyOf,
          Item.contains, hb, hq, Cursor.passing_eq_past]
  | x :: y :: u =>
    by_cases hb : x = '\\'
    · subst hb
      by_cases hy : y = '\n' <;>
        simp [pieceRegex, Regex.ends, pastPiece?, h, piece?, distinct, contains_anyOf,
          Item.contains, hy, Cursor.passing_eq_past]
    · by_cases hq : x = '"' <;>
        simp [pieceRegex, Regex.ends, pastPiece?, h, piece?, distinct, contains_anyOf,
          Item.contains, hb, hq, Cursor.passing_eq_past]

theorem pastPiece?_eq_some {c d : Cursor} (h : pastPiece? c = some d) :
    ∃ w u, piece? c.rest = some (w, u) ∧ d = c.past w u := by
  unfold pastPiece? at h
  cases hp : piece? c.rest with
  | none => simp [hp] at h
  | some p => exact ⟨p.1, p.2, rfl, by simpa [hp] using h.symm⟩

theorem stepwise_piece : Stepwise pieceRegex.ends pastPiece? := by
  refine ⟨ends_pieceRegex, fun c d h => ?_, fun c d h => ?_⟩
  · obtain ⟨w, u, hp, rfl⟩ := pastPiece?_eq_some h
    have := (piece?_eq_some hp).2.1
    simp only [Cursor.past_pos]
    omega
  · obtain ⟨w, u, -, rfl⟩ := pastPiece?_eq_some h
    rfl

/-- The pieces of a spelling are gone through to its end, and no place before that is at a
quote. -/
theorem stepsFrom_spelling {v u : List Char} (hv : IsSpelling v) (hu : piece? u = none) :
    ∀ (c : Cursor) (rounds : Nat), c.rest = v ++ u → v.length ≤ rounds →
      ∃ before, stepsFrom pastPiece? rounds c = before ++ [c.past v u] ∧
        ∀ d ∈ before, Stops (· == '"') d.rest := by
  have hnext (c : Cursor) (rounds : Nat) {a w rest : List Char} (hrest : c.rest = a ++ rest)
      (hp : piece? (a ++ rest) = some (a, rest)) (hq : Stops (· == '"') (a ++ rest))
      (ih : ∃ before, stepsFrom pastPiece? rounds (c.past a rest) =
        before ++ [(c.past a rest).past w u] ∧ ∀ d ∈ before, Stops (· == '"') d.rest) :
      ∃ before, stepsFrom pastPiece? (rounds + 1) c = before ++ [c.past (a ++ w) u] ∧
        ∀ d ∈ before, Stops (· == '"') d.rest := by
    obtain ⟨before, hsteps, hbefore⟩ := ih
    refine ⟨c :: before, ?_, ?_⟩
    · simp [stepsFrom, pastPiece?, hrest, hp, hsteps]
    · intro d hd
      rcases List.mem_cons.mp hd with rfl | hd
      · rw [hrest]
        exact hq
      · exact hbefore d hd
  induction hv with
  | nil =>
    intro c rounds hrest _
    have hc : c.past [] u = c := by rw [List.nil_append] at hrest; rw [← hrest, Cursor.past_nil]
    have hnone : pastPiece? c = none := by simp [pastPiece?, hrest, hu]
    refine ⟨[], ?_, by simp⟩
    cases rounds <;> simp [stepsFrom, hc, hnone]
  | @plain x w hq hb _ ih =>
    intro c rounds hrest hlen
    obtain ⟨rounds, rfl⟩ : ∃ n, rounds = n + 1 := ⟨rounds - 1, by simp at hlen; omega⟩
    exact hnext c rounds (a := [x]) hrest (piece?_plain hq hb _) (stops_cons.mpr (by simpa using hq))
      (ih (c.past [x] (w ++ u)) rounds rfl (by simp at hlen; omega))
  | @pair x w hx _ ih =>
    intro c rounds hrest hlen
    obtain ⟨rounds, rfl⟩ : ∃ n, rounds = n + 1 := ⟨rounds - 1, by simp at hlen; omega⟩
    exact hnext c rounds (a := ['\\', x]) hrest (piece?_pair hx _) (stops_cons.mpr rfl)
      (ih (c.past ['\\', x] (w ++ u)) rounds rfl (by simp at hlen; omega))

/-- So the closing quote can only stand behind the longest spelling. -/
theorem ends_closingRegex {c : Cursor} (hg : c.groups = []) {v u : List Char} (hv : IsSpelling v)
    (hu : piece? u = none) (hrest : c.rest = v ++ u) :
    closingRegex.ends c = distinct ((Regex.one (.ofChar '"') .exact).ends (c.past v u)) := by
  have hloop : (Regex.loop pieceRegex 0 none .greedy).ends c =
      loopEnds pieceRegex.ends 0 none false ((c.rest.length + 1) * (pieceRegex.groupCount + 1)) c :=
    rfl
  obtain ⟨before, hsteps, hbefore⟩ := stepsFrom_spelling hv hu c
    ((c.rest.length + 1) * (pieceRegex.groupCount + 1)) hrest
    (by simp [hrest, pieceRegex, Regex.groupCount]; omega)
  have hothers : (before.reverse.flatMap (Regex.one (.ofChar '"') .exact).ends) = [] := by
    rw [List.flatMap_eq_nil_iff]
    intro d hd
    refine Regex.ends_one_of_stops ?_
    simpa [Stops] using hbefore d (List.mem_reverse.mp hd)
  rw [closingRegex, Regex.ends_seq, hloop, stepwise_piece.loopEnds_eq _ hg, hsteps]
  simp only [List.reverse_append, List.reverse_cons, List.reverse_nil, List.nil_append,
    List.cons_append, List.flatMap_cons, hothers, List.append_nil]

theorem reads_quoted :
    Reads (ofRegex source (.seq (.one (.ofChar '"') .exact) closingRegex)) IsQuoted
      fun _ => false := by
  have complete {v u : List Char} (hv : IsSpelling v) :
      (ofRegex source (.seq (.one (.ofChar '"') .exact) closingRegex)).matched?
        ('"' :: (v ++ ['"']) ++ u) = some ('"' :: (v ++ ['"'])) := by
    have hopen : (Regex.one (.ofChar '"') .exact).first? (.start ('"' :: (v ++ ['"']) ++ u)) =
        some ((Cursor.start ('"' :: (v ++ ['"']) ++ u)).past ['"'] (v ++ '"' :: u)) := by
      rw [Regex.first?, Regex.ends_one_cons rfl (contains_ofChar '"' '"')]
      simp
    refine matched?_of_first? (Regex.first?_seq hopen ?_)
    rw [Regex.first?, ends_closingRegex rfl hv (piece?_quote u) rfl, head?_distinct,
      Regex.ends_one_cons rfl (contains_ofChar '"' '"')]
    simp
  refine .of_matches ?_ fun input => ?_
  · rintro w u ⟨v, hv, rfl⟩ -
    exact complete hv
  · by_cases hs : Stops ((CharSet.ofChar '"').contains .exact) input
    · exact .inl (matched?_of_ends_nil (Regex.ends_seq_of_nil (Regex.ends_one_of_stops hs)))
    · obtain ⟨x, rest, rfl, hx⟩ := exists_cons_of_not_stops hs
      have hquote : x = '"' := by simpa using hx
      subst hquote
      obtain ⟨v, u, rfl, hv, hu⟩ := exists_spelling rest
      by_cases hclose : Stops ((CharSet.ofChar '"').contains .exact) u
      · refine .inl (matched?_of_ends_nil ?_)
        have hnil : closingRegex.ends ((Cursor.start ('"' :: (v ++ u))).past ['"'] (v ++ u)) = [] := by
          rw [ends_closingRegex rfl hv hu rfl, Regex.ends_one_of_stops hclose]
          rfl
        rw [Regex.ends_seq, Regex.ends_one_cons rfl hx]
        simp only [List.flatMap_cons, List.flatMap_nil, List.append_nil, hnil]
        rfl
      · obtain ⟨y, u, rfl, hy⟩ := exists_cons_of_not_stops hclose
        have hquote : y = '"' := by simpa using hy
        subst hquote
        refine .inr ⟨'"' :: (v ++ ['"']), u, by simp, ⟨v, hv, rfl⟩, ?_⟩
        simpa using complete (u := u) hv

end Pattern

end LeafGrammar
