import LeafGrammar.Proofs.Grammar.Legibility

/-!
# What a quoted value may hold

A text can be rendered between quotes in many ways (`Renders`): every character as itself, but
for the quote and the backslash, or with a backslash in front of it. Taking the backslashes off
gives the text back from every rendering. The pattern that finds the end of a quoted value does
not go as far: it does not take a line feed behind a backslash.

So a key with a quoted value is read to a dictionary exactly if its rendering has no such line
feed (`parseKeyValue_quoted`). Otherwise not even the key is read: no pair starts the text, the
body is empty, and all of the text is left over.
-/

namespace LeafGrammar

/-- A text is cut in one way only into a run of some characters and a rest that does not go on
with one. -/
theorem Pattern.run_unique {f : Char → Bool} {v v' u u' : List Char} (hv : ∀ c ∈ v, f c = true)
    (hv' : ∀ c ∈ v', f c = true) (hu : Stops f u) (hu' : Stops f u') (h : v ++ u = v' ++ u') :
    v = v' ∧ u = u' := by
  induction v generalizing v' with
  | nil =>
    cases v' with
    | nil => exact ⟨rfl, h⟩
    | cons c v' =>
      rw [List.nil_append] at h
      subst h
      rw [List.cons_append, stops_cons, hv' c List.mem_cons_self] at hu
      cases hu
  | cons c v ih =>
    cases v' with
    | nil =>
      rw [List.nil_append] at h
      subst h
      rw [List.cons_append, stops_cons, hv c List.mem_cons_self] at hu'
      cases hu'
    | cons c' v' =>
      obtain ⟨rfl, hrest⟩ := List.cons.inj h
      obtain ⟨rfl, rfl⟩ := ih (fun x hx => hv x (List.mem_cons_of_mem _ hx))
        (fun x hx => hv' x (List.mem_cons_of_mem _ hx)) hrest
      exact ⟨rfl, rfl⟩

namespace Blocks

open Grammar

/-! ### Renderings -/

/-- Does a rendering have a line feed behind a backslash? -/
def escapesLineFeed : List Char → Bool
  | '\\' :: c :: w => c == '\n' || escapesLineFeed w
  | _ :: w => escapesLineFeed w
  | [] => false

theorem escapesLineFeed_plain {c : Char} (hc : c ≠ '\\') (w : List Char) :
    escapesLineFeed (c :: w) = escapesLineFeed w := by
  cases w <;> simp [escapesLineFeed, hc]

/-- The renderings without such a line feed are the spellings. -/
theorem Renders.spells_iff {w v : List Char} (h : Renders w v) :
    Spells w v ↔ escapesLineFeed w = false := by
  constructor
  · intro hs
    induction hs with
    | nil => rfl
    | plain _ hb _ ih =>
      cases h with
      | plain _ _ h => rw [escapesLineFeed_plain hb, ih h]
      | pair => exact absurd rfl hb
    | pair hc _ ih =>
      cases h with
      | plain _ hb => exact absurd rfl hb
      | pair h => simp [escapesLineFeed, hc, ih h]
  · intro hw
    induction h with
    | nil => exact .nil
    | plain hq hb _ ih =>
      rw [escapesLineFeed_plain hb] at hw
      exact .plain hq hb (ih hw)
    | pair _ ih =>
      simp only [escapesLineFeed, Bool.or_eq_false_iff, beq_eq_false_iff_ne] at hw
      exact .pair hw.1 (ih hw.2)

/-- A rendering ends at the first quote that has no backslash in front of it, so the quote that
closes it is found in one way only. -/
theorem Renders.closing_unique {w v w' v' u u' : List Char} (h : Renders w v) (h' : Renders w' v')
    (htext : w ++ '"' :: u = w' ++ '"' :: u') : w = w' := by
  induction h generalizing w' v' with
  | nil =>
    cases h' with
    | nil => rfl
    | plain hq => exact absurd (List.cons.inj htext).1.symm hq
    | pair => exact absurd (List.cons.inj htext).1 (by decide)
  | plain hq hb _ ih =>
    cases h' with
    | nil => exact absurd (List.cons.inj htext).1 hq
    | plain _ _ h' =>
      obtain ⟨rfl, hrest⟩ := List.cons.inj htext
      rw [ih h' hrest]
    | pair => exact absurd (List.cons.inj htext).1 hb
  | pair _ ih =>
    cases h' with
    | nil => exact absurd (List.cons.inj htext).1 (by decide)
    | plain _ hb => exact absurd (List.cons.inj htext).1.symm hb
    | pair h' =>
      obtain ⟨-, hpair⟩ := List.cons.inj htext
      obtain ⟨rfl, hrest⟩ := List.cons.inj hpair
      rw [ih h' hrest]

/-! ### One pair with a quoted value -/

/-- A key and a quoted value, with no white space. -/
def quotedPair (key : Key) (w : List Char) : List Char := key.val ++ '=' :: '"' :: (w ++ ['"'])

variable {slots : Slots} {slot : SlotId} {content pair body : Node} {key : Key} {w v : List Char}

theorem stops_quotedPair (key : Key) (w : List Char) :
    Pattern.Stops Text.isBlank (quotedPair key w) := by
  obtain ⟨_, c, more, rfl, hc, -⟩ := key
  exact Pattern.stops_cons.mpr (not_isBlank_of_startsKey hc)

/-- White space in front of a text that does not start with any is none. -/
theorem blanks_eq_nil {b : Blanks} {t u : List Char} (h : b.val ++ t = u)
    (hu : Pattern.Stops Text.isBlank u) : b.val = [] := by
  obtain ⟨_ | ⟨c, b⟩, hb⟩ := b
  · rfl
  · subst h
    rw [List.cons_append, Pattern.stops_cons, hb c List.mem_cons_self] at hu
    cases hu

/-- A value that starts a text with a quoted rendering has spelled it. -/
theorem Content.spells_of_prefix {c : Content} (hw : Renders w v)
    (h : c.text <+: '"' :: (w ++ ['"'])) : ∃ v', Spells w v' := by
  obtain ⟨t, ht⟩ := h
  have hstop : Pattern.Stops Text.isBlank ('"' :: (w ++ ['"'])) :=
    Pattern.stops_cons.mpr (by decide)
  cases c with
  | block before b after =>
    have htext : before.val ++ '{' :: (b.text ++ (after.val ++ ['}']) ++ t) =
        '"' :: (w ++ ['"']) := by
      simpa [Content.text] using ht
    rw [blanks_eq_nil htext hstop] at htext
    exact absurd (List.cons.inj htext).1 (by decide)
  | quoted before q =>
    have htext : before.val ++ '"' :: (q.spelling ++ '"' :: t) = '"' :: (w ++ ['"']) := by
      simpa [Content.text, Quoted.text] using ht
    rw [blanks_eq_nil htext hstop] at htext
    obtain rfl := q.spells.renders.closing_unique hw (List.cons.inj htext).2
    exact ⟨q.content, q.spells⟩
  | bare before b =>
    have htext : before.val ++ (b.val ++ t) = '"' :: (w ++ ['"']) := by
      simpa [Content.text] using ht
    rw [blanks_eq_nil htext hstop] at htext
    obtain ⟨b, hne, hall⟩ := b
    obtain ⟨x, b, rfl⟩ := List.exists_cons_of_ne_nil hne
    have hx := hall x List.mem_cons_self
    rw [(List.cons.inj htext).1] at hx
    exact absurd hx (by decide)

/-- A pair that starts such a text has its key, the sign behind it, and has spelled its value. -/
theorem Pair.spells_of_prefix {p : Pair} (hw : Renders w v) (h : p.text <+: quotedPair key w) :
    ∃ v', Spells w v' := by
  obtain ⟨t, ht⟩ := h
  obtain ⟨beforeKey, key', beforeSign, c⟩ := p
  obtain ⟨x, more, hkey, -, hmore⟩ := key.2
  obtain ⟨x', more', hkey', -, hmore'⟩ := key'.2
  have htext : beforeKey.val ++ (key'.val ++ (beforeSign.val ++ '=' :: (c.text ++ t))) =
      quotedPair key w := by
    simpa [Pair.text] using ht
  rw [blanks_eq_nil htext (stops_quotedPair key w), quotedPair, hkey, hkey'] at htext
  have hkeys : more' ++ (beforeSign.val ++ '=' :: (c.text ++ t)) =
      more ++ '=' :: '"' :: (w ++ ['"']) := (List.cons.inj htext).2
  have hsign : FollowedBy ['='] ('=' :: '"' :: (w ++ ['"'])) :=
    .token ⟨[], by decide⟩ (by simp) _
  obtain ⟨-, hrest⟩ := Pattern.run_unique hmore' hmore
    (stops_key (.token beforeSign (by simp) _)) (stops_key hsign) hkeys
  rw [blanks_eq_nil hrest (Pattern.stops_cons.mpr (by decide))] at hrest
  exact Content.spells_of_prefix hw ⟨t, (List.cons.inj hrest).2⟩

/-- A spelled value makes the text a sentence. -/
theorem exists_sentence (key : Key) (h : Spells w v) : ∃ sentence : Sentence (quotedPair key w),
    sentence.body.meaning = .dict [(.text (String.ofList key.val), .text (String.ofList v))] := by
  let blanks : Blanks := ⟨[], by decide⟩
  let body : Body := .pairs (.mk blanks key blanks (.quoted blanks ⟨w, v, h⟩)) .nil none
  have htext : body.text ++ blanks.val = quotedPair key w := by
    simp [body, blanks, Body.text, Pair.text, Content.text, Quoted.text, Pairs.text, trailingText,
      quotedPair]
  exact ⟨⟨body, blanks, htext⟩, rfl⟩

theorem parseKeyValue_of_spells {s : Session} (hfree : RunsFreely s (quotedPair key w))
    (h : Spells w v) :
    EndsWith (fun fuel => parseKeyValue fuel s (quotedPair key w))
      (.ok (.dict [(.text (String.ofList key.val), .text (String.ofList v))])) := by
  obtain ⟨sentence, hmeaning⟩ := exists_sentence key h
  exact hmeaning ▸ hfree.endsWith_meaning sentence

/-- The rule for pairs fails at a rendering that is no spelling. -/
theorem Layout.pair_fails (L : Layout slots slot content pair body) (key : Key) (hw : Renders w v)
    (hno : ¬ ∃ v', Spells w v') :
    ∃ q c, Derives slots (quotedPair key w) (.node pair (.num 0)) (.ok (.failure q c)) := by
  have hcontents (k : Nat) : Answers slots (quotedPair key w) content (.num k) _ :=
    L.isContent.answers L.filled k fun k' _ _ => L.answers _ k' (Nat.le_refl _)
  obtain ⟨e, he, hsound⟩ := L.isPair.answers 0 fun k _ => hcontents k
  rcases e with f | ⟨tokens, q⟩ | ⟨q, c⟩
  · exact hsound.elim
  · obtain ⟨p, -, hp, -⟩ := hsound
    exact absurd (p.spells_of_prefix hw hp) hno
  · exact ⟨q, c, he⟩

/-- So the whole grammar reads an empty body there, and stops where it started. -/
theorem IsKeyValue.derives_nothing {n : Node} (h : IsKeyValue slots n) (hw : Renders w v)
    (hno : ¬ ∃ v', Spells w v') :
    Derives slots (quotedPair key w) (.node n (.num 0))
      (.ok (.success [dictValue []] (.num 0))) := by
  obtain ⟨i, L, hspaces⟩ := h
  obtain ⟨q, c, hpair⟩ := L.pair_fails key hw hno
  have hbody := L.isBody.derives_empty hpair
  have htail : Derives slots (quotedPair key w) _ _ :=
    hspaces.derives (k := 0) (b := []) rfl (by simp [IsBlanks]) (stops_quotedPair key w)
  exact .seq hbody htail

theorem parseKeyValue_of_not_spells {s : Session} (hfree : RunsFreely s (quotedPair key w))
    (hw : Renders w v) (hno : ¬ ∃ v', Spells w v') :
    EndsWith (fun fuel => parseKeyValue fuel s (quotedPair key w))
      (.error (.parse ⟨some "Unconsumed input", some (.num 0), some (quotedPair key w)⟩)) := by
  obtain ⟨slots, n, hn, hends⟩ := hfree.endsWith
  have hend := hends _ (hn.derives_nothing hw hno)
  have hrest : (Integral.num 0).toInt ≠ (quotedPair key w).length := by
    simp only [Integral.toInt_num, quotedPair, List.length_append, List.length_cons]
    omega
  simpa only [bind, Except.bind, Session.conclusion_unconsumed hrest] using hend

/-- **A quoted value is read exactly if no line feed in it is escaped.** The unescaper gives the
text back from each of its renderings. The parser gives the dictionary that binds the key to the
text, unless the rendering has a line feed behind a backslash: then it complains of all the text
as left over. A trace does not change this on a text whose length can be written. -/
theorem parseKeyValue_quoted (s : Session) (key : Key) (w v : List Char)
    (hs : s.journal.trace = false ∨ Number.isWritable (quotedPair key w).length = true)
    (hw : Renders w v) :
    unescape w = v ∧
      EndsWith (fun fuel => parseKeyValue fuel s (quotedPair key w))
        (if escapesLineFeed w then
          .error (.parse ⟨some "Unconsumed input", some (.num 0), some (quotedPair key w)⟩)
        else .ok (.dict [(.text (String.ofList key.val), .text (String.ofList v))])) := by
  refine ⟨unescape_of_renders hw, ?_⟩
  have hfree : RunsFreely s (quotedPair key w) :=
    hs.elim (.of_not_trace · _) (.of_isWritable s)
  cases hfeed : escapesLineFeed w with
  | false => exact parseKeyValue_of_spells hfree (hw.spells_iff.mpr hfeed)
  | true =>
    refine parseKeyValue_of_not_spells hfree hw ?_
    rintro ⟨v', hspells⟩
    have hnone := hspells.renders.spells_iff.mp hspells
    rw [hfeed] at hnone
    cases hnone

/-- A run of backslashes in front of an escaped quote, with a trace. -/
theorem parseKeyValue_quoted_backslashes :
    Number.isWritable ("a=\"\\\\\\\"\"".toList.length : Nat) = true ∧
      Renders ['\\', '\\', '\\', '"'] ['\\', '"'] ∧
        EndsWith (fun fuel => parseKeyValue fuel (Session.new (Journal.new true "TRACE"))
          "a=\"\\\\\\\"\"".toList) (.ok (.dict [(.text "a", .text "\\\"")])) :=
  ⟨rfl, .pair (.pair .nil),
    (parseKeyValue_quoted (Session.new (Journal.new true "TRACE"))
      ⟨['a'], 'a', [], rfl, by decide, by simp⟩ _ _ (.inr rfl) (.pair (.pair .nil))).2⟩

/-- Not every rendering is read: a line feed alone, with a backslash in front of it, is not. -/
theorem exists_renders_not_parsed : ¬ ∀ (key : Key) (w v : List Char), Renders w v →
    EndsWith (fun fuel => parseKeyValue fuel (Session.new (Journal.new false "WARNING"))
      (quotedPair key w)) (.ok (.dict [(.text (String.ofList key.val), .text (String.ofList v))])) := by
  intro hall
  let key : Key := ⟨['a'], 'a', [], rfl, by decide, by simp⟩
  have hw : Renders ['\\', '\n'] ['\n'] := .pair .nil
  have hno : ¬ ∃ v', Spells ['\\', '\n'] v' := by
    rintro ⟨v', hspells⟩
    exact absurd (hspells.renders.spells_iff.mp hspells) (by decide)
  obtain ⟨fuel, hrun⟩ := (hall key _ _ hw).exists_run
  have hfree : RunsFreely (Session.new (Journal.new false "WARNING"))
      (quotedPair key ['\\', '\n']) := .of_not_trace rfl _
  have hfailed := parseKeyValue_of_not_spells hfree hw hno
  cases hfailed.eq_of_run hrun

end Blocks

end LeafGrammar
