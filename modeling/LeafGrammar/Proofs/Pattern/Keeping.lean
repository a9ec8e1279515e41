import LeafGrammar.Pattern.Matcher

/-!
# Where a match begins

A pattern is tried on what is left of a text, but what it finds need not begin there: of an
expression with a `\K` only what it takes behind that is kept. This is the one expression that moves
the place from which a match is kept. All others, and the loops and searches that they are put
together with, leave it where it is (`Regex.keeps_ends`), so without a `\K` what is found begins
where the pattern was tried (`findsInPlace_of_isKeepless`).
-/

namespace LeafGrammar

/-- Wherever in the text the pattern is tried, what it finds begins there. -/
def Pattern.FindsInPlace (p : Pattern) (text : List Char) : Prop :=
  ∀ (k : Nat) (found : List Char), p.matched? (text.drop k) = some found → found <+: text.drop k

namespace Pattern

/-- All the cursors keep their match from the same place. -/
def KeptFrom (n : Nat) (cs : List Cursor) : Prop := ∀ c ∈ cs, c.kept = n

namespace KeptFrom

variable {n : Nat} {c : Cursor} {cs ds : List Cursor}

theorem nil (n : Nat) : KeptFrom n [] := by simp [KeptFrom]

@[simp] theorem cons_iff : KeptFrom n (c :: cs) ↔ c.kept = n ∧ KeptFrom n cs := List.forall_mem_cons

@[simp] theorem append_iff : KeptFrom n (cs ++ ds) ↔ KeptFrom n cs ∧ KeptFrom n ds :=
  List.forall_mem_append

theorem subset (h : KeptFrom n cs) (hs : ds ⊆ cs) : KeptFrom n ds := fun d hd => h d (hs hd)

end KeptFrom

/-- From wherever the body starts, it leads to cursors that keep their match from the same place. -/
def Keeps (body : Cursor → List Cursor) : Prop := ∀ c, KeptFrom c.kept (body c)

variable {body : Cursor → List Cursor} {n : Nat} {c : Cursor} {cs : List Cursor}

theorem Keeps.flatMap (hb : Keeps body) (hcs : KeptFrom n cs) : KeptFrom n (cs.flatMap body) := by
  intro d hd
  obtain ⟨c, hc, hd⟩ := List.mem_flatMap.mp hd
  exact (hb c d hd).trans (hcs c hc)

/-! ### Places and rounds -/

theorem distinctFrom_subset (seen : Places) (cs : List Cursor) : distinctFrom seen cs ⊆ cs := by
  induction cs generalizing seen with
  | nil => exact List.Subset.refl _
  | cons c rest ih =>
    unfold distinctFrom
    split
    · exact List.subset_cons_of_subset c (ih seen)
    · exact List.cons_subset_cons c (ih _)

theorem distinct_subset (cs : List Cursor) : distinct cs ⊆ cs := by
  unfold distinct
  split
  · exact List.Subset.refl _
  · exact List.Subset.refl _
  · exact distinctFrom_subset _ _

theorem keptFrom_spans (inSet : Char → Bool) (u : List Char) (least : Nat) (most : Option Nat)
    (hc : c.kept = n) (hcs : KeptFrom n cs) : KeptFrom n (spans inSet u least most c cs) := by
  induction u generalizing least most c cs with
  | nil =>
    unfold spans
    split
    · exact KeptFrom.cons_iff.mpr ⟨hc, hcs⟩
    · exact hcs
  | cons x rest ih =>
    have hstop : KeptFrom n (if least = 0 then c :: cs else cs) := by
      split
      · exact KeptFrom.cons_iff.mpr ⟨hc, hcs⟩
      · exact hcs
    unfold spans
    extract_lets acc
    split
    · exact hstop
    · exact ih _ _ hc hstop

theorem keptFrom_roundsOf (hb : Keeps body) (count : Nat) (hcs : KeptFrom n cs) :
    KeptFrom n (roundsOf body count cs) := by
  induction count generalizing cs with
  | zero => exact hcs
  | succ count ih =>
    have hnext : KeptFrom n (distinct (cs.flatMap body)) := (hb.flatMap hcs).subset (distinct_subset _)
    unfold roundsOf
    simp only
    split
    · exact hnext
    · exact ih hnext

/-! ### Loops -/

namespace Trail

variable {t : Trail}

theorem keptFrom_stop (ht : KeptFrom n t.stops) (hc : c.kept = n) : KeptFrom n (t.stop c).stops := by
  unfold stop
  split
  · exact ht
  · exact KeptFrom.cons_iff.mpr ⟨hc, ht⟩

theorem keptFrom_enter {go : Cursor → Trail → Trail} (endless : Bool) (ht : KeptFrom n t.stops)
    (hgo : ∀ t : Trail, KeptFrom n t.stops → KeptFrom n (go c t).stops) :
    KeptFrom n (t.enter endless go c).stops := by
  unfold enter
  simp only
  split
  · exact ht
  · split
    · exact hgo _ ht
    · exact hgo _ ht

/-- One thing after the other is tried. -/
theorem keptFrom_foldl {α : Type} {f : Trail → α → Trail} (items : List α)
    (ht : KeptFrom n t.stops)
    (hf : ∀ x ∈ items, ∀ t : Trail, KeptFrom n t.stops → KeptFrom n (f t x).stops) :
    KeptFrom n (items.foldl f t).stops := by
  induction items generalizing t with
  | nil => exact ht
  | cons x items ih =>
    rw [List.foldl_cons]
    exact ih (hf x List.mem_cons_self t ht) fun y hy => hf y (List.mem_cons_of_mem x hy)

end Trail

theorem keptFrom_optionalRounds (hb : Keeps body) (reluctant endless : Bool) (rounds : Nat)
    {t : Trail} (ht : KeptFrom n t.stops) (hc : c.kept = n) :
    KeptFrom n (optionalRounds body reluctant endless rounds c t).stops := by
  induction rounds generalizing c t with
  | zero => exact Trail.keptFrom_stop ht hc
  | succ rounds ih =>
    have hbefore : KeptFrom n (if reluctant then t.stop c else t).stops := by
      split
      · exact Trail.keptFrom_stop ht hc
      · exact ht
    have hrounds := Trail.keptFrom_foldl (body c) hbefore
      (f := fun t c' => if c'.isAt c then t.stop c'
        else t.enter endless (optionalRounds body reluctant endless rounds) c')
      fun c' hc' t ht => by
        have hkept : c'.kept = n := (hb c c' hc').trans hc
        split
        · exact Trail.keptFrom_stop ht hkept
        · exact Trail.keptFrom_enter endless ht fun t ht => ih ht hkept
    unfold optionalRounds
    extract_lets before after
    split
    · exact hrounds
    · exact Trail.keptFrom_stop hrounds hc

theorem keeps_loopEnds (hb : Keeps body) (least : Nat) (most : Option Nat) (reluctant : Bool)
    (plenty : Nat) : Keeps (loopEnds body least most reluctant plenty) := by
  intro c
  unfold loopEnds
  simp only
  refine KeptFrom.subset ?_ (List.reverse_subset.mpr (List.Subset.refl _))
  refine Trail.keptFrom_foldl _ (KeptFrom.nil _) ?_
  rintro ⟨d, goesOn⟩ hd t ht
  have hkept : d.kept = c.kept := by
    cases least with
    | zero =>
      obtain ⟨rfl, -⟩ := Prod.mk.inj (List.mem_singleton.mp hd)
      rfl
    | succ least =>
      obtain ⟨e, he, hd⟩ := List.mem_flatMap.mp hd
      obtain ⟨d', hd', heq⟩ := List.mem_map.mp hd
      obtain ⟨rfl, -⟩ := Prod.mk.inj heq
      have hstart : KeptFrom c.kept [c] := by simp [KeptFrom]
      exact (hb e d' hd').trans (keptFrom_roundsOf hb least hstart e he)
  simp only
  split
  · exact Trail.keptFrom_enter _ ht fun t ht => keptFrom_optionalRounds hb _ _ _ ht hkept
  · exact Trail.keptFrom_stop ht hkept

/-! ### Expressions -/

theorem Cursor.back_kept (c : Cursor) : c.back.kept = c.kept := by
  unfold back
  split <;> rfl

theorem endingAt?_kept (hb : Keeps body) {target : Nat} {passed : List Char} {d : Cursor}
    (h : endingAt? body target passed c = some d) : d.kept = c.kept := by
  induction passed generalizing c with
  | nil =>
    unfold endingAt? at h
    split at h
    · rename_i e he
      cases h
      exact hb c d (List.mem_of_find?_eq_some he)
    · cases h
  | cons x passed ih =>
    unfold endingAt? at h
    split at h
    · rename_i e he
      cases h
      exact hb c d (List.mem_of_find?_eq_some he)
    · exact (ih h).trans c.back_kept

theorem literally?_kept {k : Caseness} {w : List Char} {d : Cursor}
    (h : literally? k w c = some d) : d.kept = c.kept := by
  induction w generalizing c with
  | nil =>
    cases h
    rfl
  | cons x w ih =>
    unfold literally? at h
    split at h
    · cases h
    · split at h
      · exact (ih h).trans rfl
      · cases h

namespace Regex

/-- There is no `\K` in the expression. -/
def isKeepless : Regex → Bool
  | .keep => false
  | .seq a b | .alt a b => a.isKeepless && b.isKeepless
  | .loop body _ _ _ | .group _ body | .atomic body | .look _ _ body => body.isKeepless
  | .empty | .never | .one _ _ | .back _ _ _ | .anchor _ => true

/-- A loop over a set goes over characters only. -/
theorem keeps_loop_one (set : CharSet) (k : Caseness) (least : Nat) (most : Option Nat)
    (greed : Greed) : Keeps (loop (.one set k) least most greed).ends := by
  intro c
  have hspans : KeptFrom c.kept (spans (set.contains k) c.rest least most c []) :=
    keptFrom_spans _ _ _ _ rfl (KeptFrom.nil _)
  unfold ends
  cases greed with
  | greedy => exact hspans
  | reluctant => exact hspans.subset (List.reverse_subset.mpr (List.Subset.refl _))
  | possessive => exact hspans.subset (List.take_subset _ _)

theorem keeps_loop {body : Regex} (hb : Keeps body.ends) (least : Nat) (most : Option Nat)
    (greed : Greed) : Keeps (loop body least most greed).ends := by
  cases body with
  | one set k => exact keeps_loop_one set k least most greed
  | _ =>
    intro c
    unfold ends
    cases greed with
    | greedy => exact keeps_loopEnds hb least most false _ c
    | reluctant => exact keeps_loopEnds hb least most true _ c
    | possessive => exact (keeps_loopEnds hb least most false _ c).subset (List.take_subset _ _)

theorem keeps_look {body : Regex} (hb : Keeps body.ends) (behind negated : Bool) :
    Keeps (look behind negated body).ends := by
  intro c d hd
  unfold ends at hd
  extract_lets before found at hd
  have hkept : ∀ e, found = some e → e.kept = c.kept := by
    intro e he
    cases behind with
    | true => exact endingAt?_kept hb he
    | false => exact hb c e (List.mem_of_mem_head? he)
  clear_value found
  cases found with
  | none =>
    cases negated with
    | false => cases hd
    | true =>
      obtain rfl := List.mem_singleton.mp hd
      rfl
  | some e =>
    cases negated with
    | false =>
      obtain rfl := List.mem_singleton.mp hd
      exact hkept e rfl
    | true => cases hd

/-- **An expression without a `\K` leaves the place where it is from which its match is kept.** -/
theorem keeps_ends {r : Regex} (h : r.isKeepless = true) : Keeps r.ends := by
  induction r with
  | empty => exact fun c => by simp [ends, KeptFrom]
  | never => exact fun c => KeptFrom.nil _
  | one set k =>
    intro c
    unfold ends
    split
    · exact KeptFrom.nil _
    · split
      · simp [KeptFrom, Cursor.passing]
      · exact KeptFrom.nil _
  | seq a b iha ihb =>
    obtain ⟨ha, hb⟩ := Bool.and_eq_true_iff.mp h
    intro c
    unfold ends
    exact ((ihb hb).flatMap (iha ha c)).subset (distinct_subset _)
  | alt a b iha ihb =>
    obtain ⟨ha, hb⟩ := Bool.and_eq_true_iff.mp h
    intro c
    unfold ends
    exact (KeptFrom.append_iff.mpr ⟨iha ha c, ihb hb c⟩).subset (distinct_subset _)
  | loop body least most greed ih => exact keeps_loop (ih h) least most greed
  | group i body ih =>
    intro c d hd
    unfold ends at hd
    obtain ⟨e, he, rfl⟩ := List.mem_map.mp hd
    exact ih h c e he
  | atomic body ih =>
    intro c
    unfold ends
    exact (ih h c).subset (List.take_subset _ _)
  | look behind negated body ih => exact keeps_look (ih h) behind negated
  | back target position k =>
    intro c d hd
    unfold ends at hd
    split at hd
    · obtain ⟨w, -, hw⟩ := Option.bind_eq_some_iff.mp (Option.mem_toList.mp hd)
      exact literally?_kept hw
    · cases hd
  | anchor a =>
    intro c
    unfold ends
    split
    · simp [KeptFrom]
    · exact KeptFrom.nil _
  | keep => cases h

end Regex

/-- **Without a `\K` a match begins where it was looked for.** -/
theorem findsInPlace_of_isKeepless (source : String) {e : Expression}
    (h : e.root.isKeepless = true) (text : List Char) :
    (ofExpression source e).FindsInPlace text := by
  intro k found hfound
  replace hfound : e.matched? (text.drop k) = some found := hfound
  unfold Expression.matched? Regex.found? at hfound
  split at hfound
  · obtain ⟨c, hc, rfl⟩ := Option.map_eq_some_iff.mp hfound
    have hkept : c.kept = 0 := Regex.keeps_ends h _ c (List.mem_of_mem_head? hc)
    rw [hkept, List.drop_zero]
    exact List.take_prefix _ _
  · cases hfound

end Pattern

end LeafGrammar
