import LeafGrammar.Proofs.Grammar.Blocks

/-!
# The key/value grammar is right

The rules of the grammar are known by their shape (`Layout`), with the rule for a body in
the slot behind the opening brace.

A tree is found by the rule of its phrase in front of a text that goes on as it may after
the phrase. What comes next is decided by one character each time, with one exception: a
separator may be the last one, and then the round that has read it is given up and the
separator is read again.

The other way round every rule ends on every text without a fault, and where it succeeds it
has read a tree. The actions get what they expect, because tokens of any other shape are
never made.
-/

namespace LeafGrammar.Blocks

open Grammar

/-! ### Tokens -/

/-- The pattern for a key. -/
def keyPattern : Pattern :=
  .ofRegex "[A-Za-z_][\\w.-]*"
    (.seq (.one (.anyOf [.range 'A' 'Z', .range 'a' 'z', .char '_'] false) .exact)
      (.loop (.one (.anyOf [.named .word false, .char '.', .char '-'] false) .exact) 0 none .greedy))

/-- The pattern for a bare value. -/
def barePattern : Pattern :=
  .ofRegex "[^\\s;\x7b\x7d=\"]+"
    (.loop (.one (.anyOf [.named .blank false, .char ';', .char '{', .char '}', .char '=',
      .char '"'] true) .exact) 1 none .greedy)

/-- The pattern for a quoted value. -/
def quotedPattern : Pattern :=
  .ofRegex "\"(?:[^\"\\\\]|\\\\.)*\"" (.seq (.one (.ofChar '"') .exact) Pattern.closingRegex)

theorem key_isToken :
    IsToken keyPattern (Pattern.IsHeaded startsKey continuesKey) continuesKey := by
  have hstart : (Pattern.CharSet.anyOf [.range 'A' 'Z', .range 'a' 'z', .char '_'] false).contains
      .exact = startsKey := by
    funext c
    simp [Pattern.contains_anyOf, Pattern.Item.contains, startsKey, Bool.or_assoc]
  have hmore : (Pattern.CharSet.anyOf [.named .word false, .char '.', .char '-'] false).contains
      .exact = continuesKey := by
    funext c
    simp [Pattern.contains_anyOf, Pattern.Item.contains, Pattern.NamedClass.contains, continuesKey,
      Bool.or_assoc]
  have hreads : keyPattern.Reads _ _ := Pattern.reads_headed _ _ _ _
  rw [hstart, hmore] at hreads
  refine ⟨hreads, ?_⟩
  rintro w ⟨c, v, rfl, hc, -⟩
  exact ⟨by simp, Pattern.stops_cons.mpr (not_isBlank_of_startsKey hc)⟩

theorem bare_isToken : IsToken barePattern (Pattern.IsRun isBareChar) isBareChar := by
  have hset : (Pattern.CharSet.anyOf [.named .blank false, .char ';', .char '{', .char '}',
      .char '=', .char '"'] true).contains .exact = isBareChar := by
    funext c
    simp [Pattern.contains_anyOf, Pattern.Item.contains, Pattern.NamedClass.contains, isBareChar,
      Bool.and_assoc]
  have hreads : barePattern.Reads _ _ := Pattern.reads_run _ _
  rw [hset] at hreads
  refine ⟨hreads, ?_⟩
  rintro w ⟨hne, hall⟩
  obtain ⟨c, v, rfl⟩ := List.exists_cons_of_ne_nil hne
  refine ⟨hne, Pattern.stops_cons.mpr ?_⟩
  have hc := hall c List.mem_cons_self
  cases hb : Text.isBlank c with
  | false => rfl
  | true => simp [isBareChar, hb] at hc

/-- The texts of quoted values. -/
def IsQuotedText (w : List Char) : Prop := ∃ q : Quoted, w = q.text

/-- Whatever is behind a backslash, the unescaped text is the one that was rendered. -/
theorem unescape_of_renders {w s : List Char} (h : Renders w s) : unescape w = s := by
  induction h with
  | nil => rfl
  | @plain c w s _ hb _ ih =>
    have hstep : unescape (c :: w) = c :: unescape w := by
      cases w <;> simp [unescape, hb]
    rw [hstep, ih]
  | pair _ ih => rw [unescape, ih]

theorem isSpelling_iff {w : List Char} : Pattern.IsSpelling w ↔ ∃ s, Spells w s := by
  constructor
  · intro h
    induction h with
    | nil => exact ⟨[], .nil⟩
    | plain hq hb _ ih =>
      obtain ⟨s, hs⟩ := ih
      exact ⟨_, .plain hq hb hs⟩
    | pair hc _ ih =>
      obtain ⟨s, hs⟩ := ih
      exact ⟨_, .pair hc hs⟩
  · rintro ⟨s, h⟩
    induction h with
    | nil => exact .nil
    | plain hq hb _ ih => exact .plain hq hb ih
    | pair hc _ ih => exact .pair hc ih

theorem quoted_isToken : IsToken quotedPattern IsQuotedText fun _ => false := by
  have hreads : quotedPattern.Reads Pattern.IsQuoted fun _ => false := Pattern.reads_quoted
  refine ⟨hreads.congr fun w => ?_, ?_⟩
  · constructor
    · rintro ⟨v, hv, rfl⟩
      obtain ⟨s, hs⟩ := isSpelling_iff.mp hv
      exact ⟨⟨v, s, hs⟩, rfl⟩
    · rintro ⟨q, rfl⟩
      exact ⟨q.spelling, isSpelling_iff.mpr ⟨q.content, q.spells⟩, rfl⟩
  · rintro w ⟨q, rfl⟩
    exact ⟨by simp [Quoted.text], Pattern.stops_cons.mpr (by decide)⟩

theorem opening_isToken : IsToken (punctuation "\\\x7b" '{') (· = ['{']) fun _ => false :=
  punctuation_isToken _ (by decide)

theorem closing_isToken : IsToken (punctuation "\\\x7d" '}') (· = ['}']) fun _ => false :=
  punctuation_isToken _ (by decide)

theorem equals_isToken : IsToken (punctuation "=" '=') (· = ['=']) fun _ => false :=
  punctuation_isToken _ (by decide)

theorem separator_isToken : IsToken (punctuation ";" ';') (· = [';']) fun _ => false :=
  punctuation_isToken _ (by decide)

/-! ### Actions -/

theorem unquote_newTokens (q : Quoted) :
    unquote.newTokens (tokenOf q.text) = .ok [.text (String.ofList q.content)] := by
  have hinner : Text.inner q.text = q.spelling := by simp [Text.inner, Quoted.text]
  show ((unquotedText (.text (String.ofList q.text)) >>= fun s => .ok (.list [.text s])) >>=
    Value.items) = _
  simp only [unquotedText, String.toList_ofList, hinner, unescape_of_renders q.spells.renders]
  rfl

/-- An entry as a token. -/
def entryToken (e : String × Value) : Value := .tuple [.text e.1, e.2]

theorem pairUp_newTokens (key : List Char) (v : Value) :
    pairUp.newTokens (tokenOf key ++ [v]) = .ok [entryToken (String.ofList key, v)] := rfl

theorem tableFrom_entryTokens (es done : List (String × Value)) (index : Nat) :
    Value.tableFrom index (es.map entryToken) ((dictOf done).map fun e => (.text e.1, e.2)) =
      .ok ((dictOf (done ++ es)).map fun e => (.text e.1, e.2)) := by
  induction es generalizing done index with
  | nil => simp [Value.tableFrom]
  | cons e es ih =>
    obtain ⟨k, v⟩ := e
    have hstep : Value.tableFrom index (((k, v) :: es).map entryToken)
        ((dictOf done).map fun e => (.text e.1, e.2)) =
          Value.tableFrom (index + 1) (es.map entryToken)
            (Value.bindKey (.text k) v ((dictOf done).map fun e => (.text e.1, e.2))) := rfl
    rw [hstep, bindKey_map, ← dictOf_snoc, ih (done ++ [(k, v)])]
    simp

theorem toTable_newTokens (es : List (String × Value)) :
    toTable.newTokens (es.map entryToken) = .ok [dictValue es] := by
  have htable : Value.tableFrom 0 (es.map entryToken) [] = _ := tableFrom_entryTokens es [] 0
  show ((Value.tableFrom 0 (es.map entryToken) [] >>= fun entries => .ok (Value.dict entries)) >>=
    fun table => .ok (Value.list [table])) >>= Value.items = _
  rw [htable]
  rfl

/-! ### Rules -/

/-- The shape of the rule for values, with the rule for bodies in the slot. The empty rule in
front of the brace is the start of the chain that owns the slot. -/
inductive IsContent (slot : SlotId) : Node → Prop where
  | mk (i j l m n o p : NodeId) {opened closed quoted bare : Node} :
      IsSymbol (punctuation "\\\x7b" '{') opened → IsSymbol (punctuation "\\\x7d" '}') closed →
        IsLexeme quotedPattern quoted → IsLexeme barePattern bare →
          IsContent slot
            (.choice i
              (.choice j (.seq l (.splice m (.seq n (.empty o) opened) slot) closed)
                (.map p quoted unquote))
              bare)

/-- The shape of the rule for pairs. -/
inductive IsPair (content : Node) : Node → Prop where
  | mk (i j l : NodeId) {key equals : Node} :
      IsLexeme keyPattern key → IsSymbol (punctuation "=" '=') equals →
        IsPair content (.map i (.seq j (.seq l key equals) content) pairUp)

/-- The shape of the rule for bodies. -/
inductive IsBody (pair : Node) : Node → Prop where
  | mk (i j l m n o p q r : NodeId) {separator last : Node} :
      IsSymbol (punctuation ";" ';') separator → IsSymbol (punctuation ";" ';') last →
        IsBody pair
          (.map i
            (.seq j (.empty l)
              (.rep m
                (.seq n (.seq o pair (.rep p (.seq q separator pair) (.num 0) none))
                  (.rep r last (.num 0) (some (.num 1))))
                (.num 0) (some (.num 1))))
            toTable)

/-- The rules for all phrases. -/
structure Layout (slots : Slots) (slot : SlotId) (content pair body : Node) : Prop where
  isContent : IsContent slot content
  isPair : IsPair content pair
  isBody : IsBody pair body
  filled : slots.target? slot = some body

variable {slots : Slots} {slot : SlotId} {content pair body : Node} {text : List Char}

/-! ### Every tree is found -/

/-- An empty rule in front changes nothing. -/
theorem derives_anchored {n : Node} {pos : Integral} {e : Finish} (i j : NodeId)
    (h : Derives slots text (.node n pos) e) :
    Derives slots text (.node (.seq i (.empty j) n) pos) e :=
  Finish.after_nil e ▸ .seq .empty h

/-- A block is read if its body is. -/
theorem IsContent.derives_block {n : Node} (h : IsContent slot n)
    (hslot : slots.target? slot = some body) (before after : Blanks) {k : Nat} {w u : List Char}
    {v : Value}
    (htext : text.drop k = before.val ++ ['{'] ++ (w ++ (after.val ++ (['}'] ++ u))))
    (hbody : Derives slots text (.node body (.num (k + (before.val ++ ['{']).length : Nat)))
      (.ok (.success [v] (.num (k + (before.val ++ ['{']).length + w.length : Nat))))) :
    Derives slots text (.node n (.num k)) (.ok (.success [v]
      (.num (k + (before.val ++ ['{'] ++ w ++ (after.val ++ ['}'])).length : Nat)))) := by
  obtain ⟨i, j, l, m, n, o, p, hopen, hclose, hquoted, hbare⟩ := h
  have hopened : Derives slots text _ _ := (hopen.scans opening_isToken).reads
    (by rw [htext, List.append_assoc]) before.2 rfl fun _ _ => rfl
  have hclosed : Derives slots text _ _ := (hclose.scans closing_isToken).reads
    (drop_add_length (drop_add_length htext)) after.2 rfl fun _ _ => rfl
  have hblock : Derives slots text
      (.node (.seq l (.splice m (.seq n (.empty o) _) slot) _) (.num k)) _ :=
    .seq (.splice (derives_anchored n o hopened) hslot hbody) hclosed
  have hend : k + (before.val ++ ['{']).length + w.length + (after.val ++ ['}']).length =
      k + (before.val ++ ['{'] ++ w ++ (after.val ++ ['}'])).length := by
    simp only [List.length_append]
    omega
  rw [hend] at hblock
  exact .choiceLeft (.choiceLeft hblock id) id

/-- The rule for blocks fails in front of any character but a brace. -/
theorem block_fails {opened closed : Node} (hopen : IsSymbol (punctuation "\\\x7b" '{') opened)
    (l m n o : NodeId) {k : Nat} {c : Char} (hu : FollowedBy [c] (text.drop k))
    (hplain : Text.isBlank c = false) (hc : c ≠ '{') :
    ∃ q complaint, Derives slots text
      (.node (.seq l (.splice m (.seq n (.empty o) opened) slot) closed) (.num k))
        (.ok (.failure q complaint)) := by
  obtain ⟨q, complaint, hno⟩ := (hopen.scans opening_isToken).fails_of_followedBy hu
    (by simpa using hplain) (by
      rintro w rfl
      exact ⟨'{', [], rfl, by simpa using hc.symm⟩)
  exact ⟨q, complaint, .seqStop (.spliceStop (derives_anchored n o hno) trivial) trivial⟩

theorem IsContent.derives_quoted {n : Node} (h : IsContent slot n) (before : Blanks) (w : Quoted)
    {k : Nat} {u : List Char} (htext : text.drop k = before.val ++ (w.text ++ u)) :
    Derives slots text (.node n (.num k)) (.ok (.success [.text (String.ofList w.content)]
      (.num (k + (before.val ++ w.text).length : Nat)))) := by
  obtain ⟨i, j, l, m, n, o, p, hopen, hclose, hquoted, hbare⟩ := h
  have hquote : FollowedBy ['"'] (text.drop k) := htext ▸ .token before (by simp) _
  obtain ⟨q, complaint, hno⟩ := block_fails hopen l m n o hquote (by decide) (by decide)
  have hread : Derives slots text _ _ :=
    (hquoted.scans quoted_isToken).reads htext before.2 ⟨w, rfl⟩ fun _ _ => rfl
  exact .choiceLeft (.choiceRight hno (.mapTokens hread (unquote_newTokens w))) id

theorem IsContent.derives_bare {n : Node} (h : IsContent slot n) (before : Blanks) (w : Bare)
    {k : Nat} {u : List Char} (htext : text.drop k = before.val ++ (w.val ++ u))
    (hu : FollowedBy [';', '}'] u) :
    Derives slots text (.node n (.num k)) (.ok (.success [.text (String.ofList w.val)]
      (.num (k + (before.val ++ w.val).length : Nat)))) := by
  obtain ⟨i, j, l, m, n, o, p, hopen, hclose, hquoted, hbare⟩ := h
  obtain ⟨c, v, hcv⟩ := List.exists_cons_of_ne_nil w.2.1
  have hc : isBareChar c = true := w.2.2 c (hcv ▸ List.mem_cons_self)
  simp only [isBareChar, Bool.not_eq_true', Bool.or_eq_false_iff, beq_eq_false_iff_ne] at hc
  obtain ⟨⟨⟨⟨⟨hplain, -⟩, hbrace⟩, -⟩, -⟩, hquote⟩ := hc
  have hfirst : FollowedBy [c] (text.drop k) := by
    rw [htext, hcv]
    exact .token before (by simp) _
  obtain ⟨q, complaint, hno⟩ := block_fails hopen l m n o hfirst hplain hbrace
  obtain ⟨q', complaint', hno'⟩ := (hquoted.scans quoted_isToken).fails_of_followedBy hfirst
    (by simpa using hplain) (by
      rintro w ⟨q, rfl⟩
      exact ⟨'"', _, rfl, by simpa using hquote.symm⟩)
  have hread : Derives slots text _ _ :=
    (hbare.scans bare_isToken).reads htext before.2 w.2 (stops_bare hu)
  exact .choiceRight (.choiceRight hno (.mapStop hno' trivial)) hread

/-- A pair is read if its value is. -/
theorem IsPair.derives {n : Node} (h : IsPair content n) (beforeKey : Blanks) (key : Key)
    (beforeSign : Blanks) {k : Nat} {w u : List Char} {v : Value}
    (htext : text.drop k = beforeKey.val ++ key.val ++ (beforeSign.val ++ ['='] ++ (w ++ u)))
    (hcontent : Derives slots text (.node content
        (.num (k + (beforeKey.val ++ key.val).length + (beforeSign.val ++ ['=']).length : Nat)))
      (.ok (.success [v] (.num (k + (beforeKey.val ++ key.val).length +
        (beforeSign.val ++ ['=']).length + w.length : Nat))))) :
    Derives slots text (.node n (.num k)) (.ok (.success [entryToken (String.ofList key.val, v)]
      (.num (k + (beforeKey.val ++ key.val ++ (beforeSign.val ++ ['=']) ++ w).length : Nat)))) := by
  obtain ⟨i, j, l, hkey, hequals⟩ := h
  have hsign : FollowedBy ['='] (beforeSign.val ++ ['='] ++ (w ++ u)) := by
    rw [List.append_assoc]
    exact .token beforeSign (by simp) _
  have hnamed : Derives slots text _ _ := (hkey.scans key_isToken).reads
    (by rw [htext, List.append_assoc]) beforeKey.2 key.2 (stops_key hsign)
  have hequal : Derives slots text _ _ := (hequals.scans equals_isToken).reads
    (by rw [drop_add_length htext, List.append_assoc]) beforeSign.2 rfl fun _ _ => rfl
  have hend : k + (beforeKey.val ++ key.val).length + (beforeSign.val ++ ['=']).length + w.length =
      k + (beforeKey.val ++ key.val ++ (beforeSign.val ++ ['=']) ++ w).length := by
    simp only [List.length_append]
    omega
  rw [hend] at hcontent
  exact .mapTokens (.seq (.seq hnamed hequal) hcontent) (pairUp_newTokens key.val v)

/-- Where a body may end no pair starts. -/
theorem IsPair.fails {n : Node} (h : IsPair content n) {k : Nat}
    (hu : FollowedBy ['}'] (text.drop k)) :
    ∃ q complaint, Derives slots text (.node n (.num k)) (.ok (.failure q complaint)) := by
  obtain ⟨i, j, l, hkey, hequals⟩ := h
  obtain ⟨q, complaint, hno⟩ := (hkey.scans key_isToken).fails_of_followedBy hu
    (List.forall_mem_singleton.mpr (by decide)) (by
      rintro w ⟨c, v, rfl, hc, -⟩
      refine ⟨c, v, rfl, ?_⟩
      rw [List.mem_singleton]
      rintro rfl
      exact absurd hc (by decide))
  exact ⟨q, complaint, .mapStop (.seqStop (.seqStop hno trivial) trivial) trivial⟩

theorem separator_reads {separator : Node} (hsep : IsSymbol (punctuation ";" ';') separator)
    (before : Blanks) {k : Nat} {u : List Char} (htext : text.drop k = before.val ++ [';'] ++ u) :
    Derives slots text (.node separator (.num k))
      (.ok (.success [] (.num (k + (before.val ++ [';']).length : Nat)))) :=
  (hsep.scans separator_isToken).reads (by rw [htext, List.append_assoc]) before.2 rfl fun _ _ => rfl

theorem separator_fails {separator : Node} (hsep : IsSymbol (punctuation ";" ';') separator)
    {k : Nat} (hu : FollowedBy ['}'] (text.drop k)) :
    ∃ q complaint, Derives slots text (.node separator (.num k)) (.ok (.failure q complaint)) := by
  refine (hsep.scans separator_isToken).fails_of_followedBy hu
    (List.forall_mem_singleton.mpr (by decide)) ?_
  rintro w rfl
  exact ⟨';', [], rfl, by decide⟩

/-- Behind the last pair no further round is made: either there is no separator, or it is the
last one and no pair comes after it. -/
theorem rounds_over {separator : Node} (hsep : IsSymbol (punctuation ";" ';') separator)
    (hpair : IsPair content pair) (q : NodeId) (trailing : Option Blanks) {k count : Nat}
    {u : List Char} {tokens : List Value} (htext : text.drop k = trailingText trailing ++ u)
    (hu : FollowedBy ['}'] u) :
    Derives slots text (.rounds (.seq q separator pair) (.num 0) none tokens (.num k) count)
      (.ok (.success tokens (.num k))) := by
  cases trailing with
  | none =>
    rw [trailingText, List.nil_append] at htext
    obtain ⟨q, complaint, hno⟩ := separator_fails hsep (htext ▸ hu)
    exact .roundsOver rfl (.seqStop hno trivial)
  | some before =>
    have hdrop : text.drop (k + (before.val ++ [';']).length) = u := drop_add_length htext
    obtain ⟨q, complaint, hno⟩ := hpair.fails (hdrop ▸ hu)
    exact .roundsOver rfl (.seq (separator_reads hsep before htext) hno)

/-- The last separator is read if it is there. -/
theorem last_derives {last : Node} (hlast : IsSymbol (punctuation ";" ';') last) (r : NodeId)
    (trailing : Option Blanks) {k : Nat} {u : List Char}
    (htext : text.drop k = trailingText trailing ++ u) (hu : FollowedBy ['}'] u) :
    Derives slots text (.node (.rep r last (.num 0) (some (.num 1))) (.num k))
      (.ok (.success [] (.num (k + (trailingText trailing).length : Nat)))) := by
  cases trailing with
  | none =>
    rw [trailingText, List.nil_append] at htext
    obtain ⟨q, complaint, hno⟩ := separator_fails hlast (htext ▸ hu)
    exact .optionalFailure hno
  | some before =>
    refine .optionalSuccess (separator_reads hlast before htext) ?_
    simp only [Integral.toInt_num, trailingText, List.length_append, List.length_singleton]
    omega

/-- Where no pair is read the body is empty. -/
theorem IsBody.derives_empty {n : Node} (h : IsBody pair n) {k : Nat} {q : Integral}
    {c : Option Complaint}
    (hno : Derives slots text (.node pair (.num k)) (.ok (.failure q c))) :
    Derives slots text (.node n (.num k)) (.ok (.success [dictValue []] (.num k))) := by
  obtain ⟨i, j, l, m, n, o, p, q, r, hsep, hlast⟩ := h
  exact .mapTokens
    (derives_anchored j l (.optionalFailure (.seqStop (.seqStop hno trivial) trivial)))
    (toTable_newTokens [])

/-- A body is read if its first pair is, and then the others. -/
theorem IsBody.derives_pairs {n : Node} (h : IsBody pair n) {e : String × Value}
    {es : List (String × Value)} (trailing : Option Blanks) {k : Nat} {first others u : List Char}
    (htext : text.drop k = first ++ (others ++ (trailingText trailing ++ u))) (hne : first ≠ [])
    (hu : FollowedBy ['}'] u)
    (hfirst : Derives slots text (.node pair (.num k))
      (.ok (.success [entryToken e] (.num (k + first.length : Nat)))))
    (hothers : ∀ {separator : Node} (q : NodeId), IsSymbol (punctuation ";" ';') separator →
      Derives slots text (.rounds (.seq q separator pair) (.num 0) none []
        (.num (k + first.length : Nat)) 0)
        (.ok (.success (es.map entryToken) (.num (k + first.length + others.length : Nat))))) :
    Derives slots text (.node n (.num k)) (.ok (.success [dictValue (e :: es)]
      (.num (k + (first ++ others ++ trailingText trailing).length : Nat)))) := by
  obtain ⟨i, j, l, m, n, o, p, q, r, hsep, hlast⟩ := h
  have hrounds : Derives slots text
      (.node (.seq o pair (.rep p (.seq q _ pair) (.num 0) none)) (.num k)) _ :=
    .seq hfirst (.rep (hothers q hsep))
  have hlast' : Derives slots text _ _ :=
    last_derives hlast r trailing (drop_add_length (drop_add_length htext)) hu
  have hend : k + first.length + others.length + (trailingText trailing).length =
      k + (first ++ others ++ trailingText trailing).length := by
    simp only [List.length_append]
    omega
  rw [hend] at hlast'
  refine .mapTokens (derives_anchored j l (.optionalSuccess (.seq hrounds hlast') ?_)) ?_
  · have hpos : 0 < first.length := List.length_pos_iff.mpr hne
    simp only [Integral.toInt_num, List.length_append]
    omega
  · have htokens : [entryToken e] ++ es.map entryToken ++ [] = (e :: es).map entryToken := by simp
    rw [htokens]
    exact toTable_newTokens (e :: es)

theorem Pair.text_ne_nil (p : Pair) : p.text ≠ [] := by
  obtain ⟨beforeKey, key, beforeSign, content⟩ := p
  simp [Pair.text]

mutual

/-- **A body is found.** In front of a text that goes on as it may after a body, the rule for
bodies ends with the dictionary that the tree means. -/
theorem Body.derives (L : Layout slots slot content pair body) : ∀ (b : Body) {k : Nat}
    {u : List Char}, text.drop k = b.text ++ u → FollowedBy ['}'] u →
      Derives slots text (.node body (.num k))
        (.ok (.success [b.meaning] (.num (k + b.text.length : Nat))))
  | .empty, k, u, htext, hu => by
    rw [Body.text, List.nil_append] at htext
    obtain ⟨q, c, hno⟩ := L.isPair.fails (htext ▸ hu)
    exact L.isBody.derives_empty hno
  | .pairs first others trailing, k, u, htext, hu => by
    rw [Body.text, List.append_assoc, List.append_assoc] at htext
    rw [Body.meaning, Body.entries, Body.text]
    refine L.isBody.derives_pairs trailing htext first.text_ne_nil hu ?_ fun q hsep => ?_
    · exact first.derives L htext (others.followed trailing hu)
    · exact others.derives L trailing hsep q (drop_add_length htext) hu

/-- A pair is found, with its key and its value. -/
theorem Pair.derives (L : Layout slots slot content pair body) : ∀ (p : Pair) {k : Nat}
    {u : List Char}, text.drop k = p.text ++ u → FollowedBy [';', '}'] u →
      Derives slots text (.node pair (.num k))
        (.ok (.success [entryToken p.entry] (.num (k + p.text.length : Nat))))
  | .mk beforeKey key beforeSign c, k, u, htext, hu => by
    have htext' : text.drop k =
        beforeKey.val ++ key.val ++ (beforeSign.val ++ ['='] ++ (c.text ++ u)) := by
      rw [htext, Pair.text]
      simp only [List.append_assoc]
    rw [Pair.entry, Pair.text]
    refine L.isPair.derives beforeKey key beforeSign htext' ?_
    exact c.derives L (drop_add_length (drop_add_length htext')) hu

/-- The pairs behind the first one are found, and the repetition ends behind them. -/
theorem Pairs.derives (L : Layout slots slot content pair body) : ∀ (others : Pairs)
    (trailing : Option Blanks) {separator : Node} (_ : IsSymbol (punctuation ";" ';') separator)
    (q : NodeId) {k count : Nat} {u : List Char} {tokens : List Value},
      text.drop k = others.text ++ (trailingText trailing ++ u) → FollowedBy ['}'] u →
        Derives slots text (.rounds (.seq q separator pair) (.num 0) none tokens (.num k) count)
          (.ok (.success (tokens ++ others.entries.map entryToken)
            (.num (k + others.text.length : Nat))))
  | .nil, trailing, separator, hsep, q, k, count, u, tokens, htext, hu => by
    rw [Pairs.text, List.nil_append] at htext
    rw [Pairs.entries, List.map_nil, List.append_nil, Pairs.text]
    exact rounds_over hsep L.isPair q trailing htext hu
  | .cons before p rest, trailing, separator, hsep, q, k, count, u, tokens, htext, hu => by
    have htext' : text.drop k =
        before.val ++ [';'] ++ (p.text ++ (rest.text ++ (trailingText trailing ++ u))) := by
      rw [htext, Pairs.text]
      simp only [List.append_assoc]
    have hdrop := drop_add_length htext'
    have hpair := p.derives L hdrop (rest.followed trailing hu)
    have hround : Derives slots text (.node (.seq q separator pair) (.num k)) _ :=
      .seq (separator_reads hsep before htext') hpair
    have hend : k + (Pairs.cons before p rest).text.length =
        k + (before.val ++ [';']).length + p.text.length + rest.text.length := by
      simp only [Pairs.text, List.length_append]
      omega
    have htokens : tokens ++ (Pairs.cons before p rest).entries.map entryToken =
        tokens ++ [entryToken p.entry] ++ rest.entries.map entryToken := by
      simp [Pairs.entries]
    rw [hend, htokens]
    refine .roundsNext rfl hround ?_ (rest.derives L trailing hsep q (drop_add_length hdrop) hu)
    simp only [Integral.toInt_num, List.length_append, List.length_singleton]
    omega

/-- A value is found, with what it means. -/
theorem Content.derives (L : Layout slots slot content pair body) : ∀ (c : Content) {k : Nat}
    {u : List Char}, text.drop k = c.text ++ u → FollowedBy [';', '}'] u →
      Derives slots text (.node content (.num k))
        (.ok (.success [c.meaning] (.num (k + c.text.length : Nat))))
  | .block before b after, k, u, htext, hu => by
    have htext' : text.drop k =
        before.val ++ ['{'] ++ (b.text ++ (after.val ++ (['}'] ++ u))) := by
      rw [htext, Content.text]
      simp only [List.append_assoc]
    rw [Content.meaning, Content.text]
    refine L.isContent.derives_block L.filled before after htext' ?_
    exact b.derives L (drop_add_length htext') (.token after (by simp) u)
  | .quoted before q, k, u, htext, hu => by
    rw [Content.text, List.append_assoc] at htext
    rw [Content.meaning, Content.text]
    exact L.isContent.derives_quoted before q htext
  | .bare before w, k, u, htext, hu => by
    rw [Content.text, List.append_assoc] at htext
    rw [Content.meaning, Content.text]
    exact L.isContent.derives_bare before w htext hu

end

/-! ### Nothing else is found -/

/-- What the rule for some trees may answer at an offset: a success with a tree that starts
there, or a failure. A fault it may not. -/
def IsSound {α : Type} (written : α → List Char) (token : α → Value) (text : List Char) (k : Nat) :
    Finish → Prop :=
  Finish.Meets
    (fun tokens q => ∃ t : α, tokens = [token t] ∧ written t <+: text.drop k ∧
      q = .num (k + (written t).length : Nat))
    True fun _ => False

theorem answers_anchored {n : Node} {pos : Integral} {P : Finish → Prop} (i j : NodeId)
    (h : Answers slots text n pos P) : Answers slots text (.seq i (.empty j) n) pos P := by
  obtain ⟨e, he, hP⟩ := h
  exact ⟨e, derives_anchored i j he, hP⟩

theorem quoted_answers {quoted : Node} (h : IsLexeme quotedPattern quoted) (p : NodeId) (k : Nat) :
    Answers slots text (.map p quoted unquote) (.num k)
      (IsSound Content.text Content.meaning text k) := by
  refine .map (((h.scans quoted_isToken).answers k).imp fun e he => ?_)
  rcases e with f | ⟨tokens, q⟩ | ⟨q, c⟩
  · exact he.elim
  · obtain ⟨b, w, hb, ⟨q, rfl⟩, hprefix, rfl, rfl⟩ := he
    rw [Finish.meets_success, unquote_newTokens]
    exact ⟨.quoted ⟨b, hb⟩ q, rfl, hprefix, rfl⟩
  · exact fun _ _ => trivial

theorem bare_answers {bare : Node} (h : IsLexeme barePattern bare) (k : Nat) :
    Answers slots text bare (.num k) (IsSound Content.text Content.meaning text k) := by
  refine ((h.scans bare_isToken).answers k).imp fun e he => ?_
  rcases e with f | ⟨tokens, q⟩ | ⟨q, c⟩
  · exact he.elim
  · obtain ⟨b, w, hb, hw, hprefix, rfl, rfl⟩ := he
    exact ⟨.bare ⟨b, hb⟩ ⟨w, hw⟩, rfl, hprefix, rfl⟩
  · trivial

/-- The rule for values answers if the rule for bodies does behind the brace. -/
theorem IsContent.answers {n : Node} (h : IsContent slot n) (hslot : slots.target? slot = some body)
    (k : Nat)
    (ih : ∀ k', k < k' → k' ≤ text.length →
      Answers slots text body (.num k') (IsSound Body.text Body.meaning text k')) :
    Answers slots text n (.num k) (IsSound Content.text Content.meaning text k) := by
  obtain ⟨i, j, l, m, n, o, p, hopen, hclose, hquoted, hbare⟩ := h
  refine .choice (.choice (.seq (.splice hslot (answers_anchored n o
    (((hopen.scans opening_isToken).answers k).imp fun e he => ?_)))) (quoted_answers hquoted p k))
    (bare_answers hbare k)
  rcases e with f | ⟨tokens, q⟩ | ⟨q, c⟩
  · exact he.elim
  · obtain ⟨before, w, hbefore, rfl, hopened, rfl, rfl⟩ := he
    have hlt : k < k + (before ++ ['{']).length := by simp
    refine (ih _ hlt (add_length_le_length hopened (by simp))).imp fun e he => ?_
    rcases e with f | ⟨tokens, q⟩ | ⟨q, c⟩
    · exact he
    · obtain ⟨b, rfl, hb, rfl⟩ := he
      refine ((hclose.scans closing_isToken).answers _).imp fun e he => ?_
      rcases e with f | ⟨tokens, q⟩ | ⟨q, c⟩
      · exact he
      · obtain ⟨after, w, hafter, rfl, hclosed, rfl, rfl⟩ := he
        have hprefix := prefix_append hopened (prefix_append hb hclosed)
        refine ⟨.block ⟨before, hbefore⟩ b ⟨after, hafter⟩, rfl, ?_, ?_⟩
        · simpa [Content.text] using hprefix
        · simp [Content.text]
          omega
      · trivial
    · exact fun _ _ => trivial
  · exact fun _ _ _ _ => trivial

/-- The rule for pairs answers if the rule for values does from here on. -/
theorem IsPair.answers {n : Node} (h : IsPair content n) (k : Nat)
    (ih : ∀ k', k ≤ k' →
      Answers slots text content (.num k') (IsSound Content.text Content.meaning text k')) :
    Answers slots text n (.num k) (IsSound Pair.text (entryToken ·.entry) text k) := by
  obtain ⟨i, j, l, hkey, hequals⟩ := h
  refine .map (.seq (.seq (((hkey.scans key_isToken).answers k).imp fun e he => ?_)))
  rcases e with f | ⟨tokens, q⟩ | ⟨q, c⟩
  · exact he.elim
  · obtain ⟨b, w, hb, hw, hnamed, rfl, rfl⟩ := he
    refine ((hequals.scans equals_isToken).answers _).imp fun e he => ?_
    rcases e with f | ⟨tokens, q⟩ | ⟨q, c⟩
    · exact he.elim
    · obtain ⟨b', w', hb', rfl, hsigned, rfl, rfl⟩ := he
      refine (ih _ (by omega)).imp fun e he => ?_
      rcases e with f | ⟨tokens, q⟩ | ⟨q, c⟩
      · exact he.elim
      · obtain ⟨c, rfl, hc, rfl⟩ := he
        have hprefix := prefix_append hnamed (prefix_append hsigned hc)
        rw [Finish.after_success, Finish.meets_success, List.append_nil, pairUp_newTokens]
        refine ⟨.mk ⟨b, hb⟩ ⟨w, hw⟩ ⟨b', hb'⟩ c, rfl, ?_, ?_⟩
        · simpa [Pair.text] using hprefix
        · simp [Pair.text]
          omega
      · exact fun _ _ => trivial
    · exact fun _ _ _ _ => trivial
  · exact fun _ _ _ _ _ _ => trivial

/-- What the rules for some pairs may answer: a first pair and others, and then `more`. -/
def IsList (more : Option Blanks → Prop) (text : List Char) (k : Nat) : Finish → Prop :=
  Finish.Meets
    (fun tokens q => ∃ (first : Pair) (others : Pairs) (trailing : Option Blanks), more trailing ∧
      tokens = (first.entry :: others.entries).map entryToken ∧
        (Body.pairs first others trailing).text <+: text.drop k ∧
          q = .num (k + (Body.pairs first others trailing).text.length : Nat))
    True fun _ => False

/-- The pairs of a body are read up to where no separator has a pair behind it. -/
theorem list_answers {separator : Node} (hsep : IsSymbol (punctuation ";" ';') separator)
    (o p q : NodeId) (k : Nat)
    (hpair : ∀ k', k ≤ k' →
      Answers slots text pair (.num k') (IsSound Pair.text (entryToken ·.entry) text k')) :
    Answers slots text (.seq o pair (.rep p (.seq q separator pair) (.num 0) none)) (.num k)
      (IsList (· = none) text k) := by
  refine .seq ((hpair k (Nat.le_refl _)).imp fun e he => ?_)
  rcases e with f | ⟨tokens, q⟩ | ⟨q, c⟩
  · exact he.elim
  · obtain ⟨first, rfl, hprefix, rfl⟩ := he
    -- what has been read so far is the first pair and some others
    let I : List Value → Nat → Prop := fun tokens k' => ∃ others : Pairs,
      tokens = others.entries.map entryToken ∧ first.text ++ others.text <+: text.drop k ∧
        k' = k + (first.text ++ others.text).length
    have hstart : I [] (k + first.text.length) :=
      ⟨.nil, rfl, by simpa [Pairs.text] using hprefix, by simp [Pairs.text]⟩
    refine .star hstart fun tokens k' hI => .seq ?_
    obtain ⟨others, rfl, hread, rfl⟩ := hI
    have hbody : (Body.pairs first others none).text = first.text ++ others.text := by
      simp [Body.text, trailingText]
    have hend : IsList (· = none) text k (.ok (.success
        ([entryToken first.entry] ++ others.entries.map entryToken)
          (.num (k + (first.text ++ others.text).length : Nat)))) :=
      ⟨first, others, none, rfl, rfl, by rwa [hbody], by rw [hbody]⟩
    refine ((hsep.scans separator_isToken).answers _).imp fun e he => ?_
    rcases e with f | ⟨tokens, q⟩ | ⟨q, c⟩
    · exact he.elim
    · obtain ⟨b, w, hb, rfl, hsign, rfl, rfl⟩ := he
      refine (hpair _ (by omega)).imp fun e he => ?_
      rcases e with f | ⟨tokens, q⟩ | ⟨q, c⟩
      · exact he.elim
      · obtain ⟨p, rfl, hp, rfl⟩ := he
        have hmore := prefix_append hread (prefix_append hsign hp)
        have htext : first.text ++ (others.snoc ⟨b, hb⟩ p).text =
            first.text ++ others.text ++ (b ++ [';'] ++ p.text) := by
          simp [Pairs.text_snoc]
        refine ⟨_, rfl, ?_, ?_, others.snoc ⟨b, hb⟩ p, ?_, ?_, ?_⟩
        · simp only [List.length_append, List.length_singleton]
          omega
        · have := add_length_le_length hmore (by simp)
          simp only [List.length_append] at this ⊢
          omega
        · simp [Pairs.entries_snoc]
        · rw [htext]
          exact hmore
        · rw [htext]
          simp only [List.length_append]
          omega
      · exact hend
    · exact fun _ _ => hend
  · exact fun _ _ => trivial

/-- A last separator may come behind the pairs. -/
theorem pairs_answers {list last : Node} (hlast : IsSymbol (punctuation ";" ';') last)
    (n r : NodeId) (k : Nat)
    (hlist : Answers slots text list (.num k) (IsList (· = none) text k)) :
    Answers slots text (.seq n list (.rep r last (.num 0) (some (.num 1)))) (.num k)
      (IsList (fun _ => True) text k) := by
  refine .seq (hlist.imp fun e he => ?_)
  rcases e with f | ⟨tokens, q⟩ | ⟨q, c⟩
  · exact he.elim
  · obtain ⟨first, others, trailing, rfl, rfl, hread, rfl⟩ := he
    refine .optional (((hlast.scans separator_isToken).answers _).imp fun e he => ?_)
    rcases e with f | ⟨tokens, q⟩ | ⟨q, c⟩
    · exact he.elim
    · obtain ⟨b, w, hb, rfl, hsign, rfl, rfl⟩ := he
      have htext : (Body.pairs first others (some ⟨b, hb⟩)).text =
          (Body.pairs first others none).text ++ (b ++ [';']) := by
        simp [Body.text, trailingText]
      refine ⟨?_, first, others, some ⟨b, hb⟩, trivial, by simp, ?_, ?_⟩
      · simp only [Integral.toInt_num, List.length_append, List.length_singleton]
        omega
      · rw [htext]
        exact prefix_append hread hsign
      · simp only [htext, List.length_append, Nat.add_assoc]
    · exact ⟨first, others, none, trivial, by simp, hread, rfl⟩
  · exact fun _ _ => trivial

/-- The rule for bodies answers if the rule for pairs does from here on. -/
theorem IsBody.answers {n : Node} (h : IsBody pair n) (k : Nat)
    (hpair : ∀ k', k ≤ k' →
      Answers slots text pair (.num k') (IsSound Pair.text (entryToken ·.entry) text k')) :
    Answers slots text n (.num k) (IsSound Body.text Body.meaning text k) := by
  obtain ⟨i, j, l, m, n, o, p, q, r, hsep, hlast⟩ := h
  refine .map (answers_anchored j l (.optional
    ((pairs_answers hlast n r k (list_answers hsep o p q k hpair)).imp fun e he => ?_)))
  rcases e with f | ⟨tokens, q⟩ | ⟨q, c⟩
  · exact he.elim
  · obtain ⟨first, others, trailing, -, rfl, hread, rfl⟩ := he
    refine ⟨?_, ?_⟩
    · have hpos := List.length_pos_iff.mpr first.text_ne_nil
      simp only [Integral.toInt_num, Body.text, List.length_append]
      omega
    · rw [Finish.meets_success, toTable_newTokens]
      exact ⟨.pairs first others trailing, by rw [Body.meaning, Body.entries], hread, rfl⟩
  · have htable := toTable_newTokens []
    rw [List.map_nil] at htable
    rw [Finish.meets_failure, Finish.meets_success, htable]
    exact ⟨.empty, rfl, by simp [Body.text], rfl⟩

/-- **Every rule ends without a fault, and reads trees only.** By what is left of the text:
the rule for values comes back to bodies behind a brace. -/
theorem Layout.answers (L : Layout slots slot content pair body) : ∀ (left k : Nat),
    text.length - k ≤ left →
      Answers slots text body (.num k) (IsSound Body.text Body.meaning text k) := by
  intro left
  induction left using Nat.strongRecOn with
  | ind left ih =>
    intro k hk
    have hbodies (k' : Nat) (hlt : k < k') (hle : k' ≤ text.length) :
        Answers slots text body (.num k') (IsSound Body.text Body.meaning text k') :=
      ih (text.length - k') (by omega) k' (Nat.le_refl _)
    have hcontents (k' : Nat) (hle : k ≤ k') :
        Answers slots text content (.num k') (IsSound Content.text Content.meaning text k') :=
      L.isContent.answers L.filled k' fun k'' hlt hend => hbodies k'' (by omega) hend
    exact L.isBody.answers k fun k' hle =>
      L.isPair.answers k' fun k'' hle' => hcontents k'' (by omega)

/-! ### The whole text -/

/-- The shape of the key/value grammar: a body and then white space. -/
inductive IsKeyValue (slots : Slots) : Node → Prop where
  | mk (i : NodeId) {slot : SlotId} {content pair body tail : Node} :
      Layout slots slot content pair body → IsSpaces tail → IsKeyValue slots (.seq i body tail)

/-- A derivation tree of a whole text: a body, and white space after it. -/
structure Sentence (text : List Char) where
  body : Body
  tail : Blanks
  text_eq : body.text ++ tail.val = text

/-- On a sentence the grammar ends with the dictionary, behind all of the text. -/
theorem IsKeyValue.derives {n : Node} (h : IsKeyValue slots n) (sentence : Sentence text) :
    Derives slots text (.node n (.num 0))
      (.ok (.success [sentence.body.meaning] (.num text.length))) := by
  obtain ⟨i, L, hspaces⟩ := h
  obtain ⟨b, tail, htext⟩ := sentence
  have hdrop : text.drop 0 = b.text ++ tail.val := htext.symm
  have hall := hspaces.derives_seq i hdrop tail.2 (b.derives L hdrop (.blanks tail))
  rw [htext, Nat.zero_add] at hall
  exact hall

/-- On any text it ends without a fault, and if it ends behind all of the text this is a
sentence. -/
theorem IsKeyValue.answers {n : Node} (h : IsKeyValue slots n) (text : List Char) :
    Answers slots text n (.num 0)
      (Finish.Meets (fun _ q => q.toInt = text.length → Nonempty (Sentence text)) True
        fun _ => False) := by
  obtain ⟨i, L, hspaces⟩ := h
  have hbodies := L.answers text.length 0 (Nat.le_refl _)
  refine (hspaces.answers_seq i Body.text (hbodies.imp fun e he => he.imp ?_ id fun _ => id)).imp
    fun e he => he.imp ?_ id fun _ => id
  · rintro tokens q ⟨b, -, hprefix, hq⟩
    exact ⟨b, hprefix, hq⟩
  · intro tokens q hall hq
    obtain ⟨b, tail, htext⟩ := hall hq
    exact ⟨b, tail, htext⟩

/-- The only injection point is the one behind the brace. -/
theorem Layout.points (L : Layout slots slot content pair body) : ∀ x ∈ body.points, x = slot := by
  obtain ⟨hcontent, hpair, hbody, -⟩ := L
  obtain ⟨_, _, _, _, _, _, _, hopen, hclose, hquoted, hbare⟩ := hcontent
  obtain ⟨_, _, _, hkey, hequals⟩ := hpair
  obtain ⟨_, _, _, _, _, _, _, _, _, hsep, hlast⟩ := hbody
  simp [Node.points, hopen.points_eq, hclose.points_eq, hquoted.points_eq, hbare.points_eq,
    hkey.points_eq, hequals.points_eq, hsep.points_eq, hlast.points_eq]

theorem IsKeyValue.resolved {n : Node} (h : IsKeyValue slots n) : n.Resolved slots := by
  obtain ⟨i, L, hspaces⟩ := h
  rename_i slot content pair body tail
  refine Node.resolved_of_points (P := (· = slot)) ?_ ?_
  · rintro _ rfl
    exact ⟨_, L.filled, L.points⟩
  · intro x hx
    simp only [Node.points, hspaces.points_eq, List.append_nil] at hx
    exact L.points x hx

/-! ### Building the grammar -/

theorem read_opening : Pattern.read "\\\x7b" .none = .ok (punctuation "\\\x7b" '{') := rfl

theorem read_closing : Pattern.read "\\\x7d" .none = .ok (punctuation "\\\x7d" '}') := rfl

theorem read_equals : Pattern.read "=" .none = .ok (punctuation "=" '=') := rfl

theorem read_separator : Pattern.read ";" .none = .ok (punctuation ";" ';') := rfl

theorem read_quoted : Pattern.read "\"(?:[^\"\\\\]|\\\\.)*\"" .none = .ok quotedPattern := rfl

theorem read_bare : Pattern.read "[^\\s;\x7b\x7d=\"]+" .none = .ok barePattern := rfl

theorem read_key : Pattern.read "[A-Za-z_][\\w.-]*" .none = .ok keyPattern := rfl

/-- Building the grammar cannot go wrong, and gives rules of the right shape. -/
theorem keyValue_builds (s : Session) : Build.Yields keyValue s fun r s' =>
    s'.journal = s.journal ∧ IsKeyValue s'.slots r.node := by
  unfold keyValue
  refine (Build.issueFresh_makes (.empty ·)).step (.refl s) fun anchor s₁ g₁ hanchor => ?_
  obtain ⟨⟨anchorId, hanchor⟩, hslot, hlt⟩ := hanchor
  refine (symbol_makes read_opening).step (.refl s₁) fun brace _ g hbrace => ?_
  refine (Build.andThen_makes anchor brace).step g fun opened _ g hopened => ?_
  refine (Build.markInjection_makes opened).step g fun nested _ g hnested => ?_
  refine (symbol_makes read_closing).step g fun closed _ g hclosed => ?_
  refine (Build.andThen_makes nested closed).step g fun block _ g hblock => ?_
  refine (lexeme_makes read_quoted).step g fun quotedLexeme _ g hlexeme => ?_
  refine (Build.map_makes quotedLexeme unquote).step g fun quoted _ g hquoted => ?_
  refine (lexeme_makes read_bare).step g fun bare _ g hbare => ?_
  refine (Build.orElse_makes block quoted).step g fun written _ g hwritten => ?_
  refine (Build.orElse_makes written bare).step g fun value _ g hvalue => ?_
  refine (lexeme_makes read_key).step g fun key _ g hkey => ?_
  refine (symbol_makes read_equals).step g fun equals _ g hequals => ?_
  refine (Build.andThen_makes key equals).step g fun named _ g hnamed => ?_
  refine (Build.andThen_makes named value).step g fun assigned _ g hassigned => ?_
  refine (Build.map_makes assigned pairUp).step g fun pair _ g hpair => ?_
  refine (symbol_makes read_separator).step g fun separator _ g hseparator => ?_
  refine (Build.andThen_makes separator pair).step g fun another _ g hanother => ?_
  refine (Build.star_makes another).step g fun others _ g hothers => ?_
  refine (Build.andThen_makes pair others).step g fun list _ g hlist => ?_
  refine (symbol_makes read_separator).step g fun last _ g hlast => ?_
  refine (Build.optional_makes last).step g fun trailing _ g htrailing => ?_
  refine (Build.andThen_makes list trailing).step g fun pairs _ g hpairs => ?_
  refine (Build.optional_makes pairs).step g fun perhaps _ g hperhaps => ?_
  refine (Build.andThen_makes anchor perhaps).step g fun tokens _ g htokens => ?_
  refine (Build.map_makes tokens toTable).step g fun table s₂ g htable => ?_
  -- the brace and the table are both on the chain of the anchor
  have hchain : table.chain = anchor.chain := htable.2.trans htokens.2
  have hempty : s₂.slots.target? table.chain = none := by
    rw [(g₁.trans g).target?_eq, hchain, hslot]
    simp [Slots.target?]
  refine Build.inject_step (by rw [hchain, hslot]; exact Nat.lt_of_lt_of_le hlt g.size_le) hempty
    fun s₃ hfilled hjournal => ?_
  refine spaces_makes.step (.refl s₃) fun tail _ g' htail => ?_
  obtain ⟨root, s₄, hrun, g'', ⟨i, hi⟩, -⟩ : Build.Makes _ _ _ := Build.andThen_makes table tail
  refine ⟨root, s₄, hrun, ?_, ?_⟩
  · rw [(g'.trans g'').journal_eq, hjournal, (g₁.trans g).journal_eq]
  have hcontent : IsContent table.chain value.node := by
    obtain ⟨i₁, h₁⟩ := hvalue.1
    obtain ⟨i₂, h₂⟩ := hwritten.1
    obtain ⟨i₃, h₃⟩ := hblock.1
    obtain ⟨i₄, h₄⟩ := hnested.1
    obtain ⟨i₅, h₅⟩ := hopened.1
    obtain ⟨i₆, h₆⟩ := hquoted.1
    rw [h₁, h₂, h₃, h₄, h₅, h₆, hanchor, hopened.2, ← hchain]
    exact .mk i₁ i₂ i₃ i₄ i₅ anchorId i₆ hbrace.1 hclosed.1 hlexeme.1 hbare.1
  have hassignment : IsPair value.node pair.node := by
    obtain ⟨i₁, h₁⟩ := hpair.1
    obtain ⟨i₂, h₂⟩ := hassigned.1
    obtain ⟨i₃, h₃⟩ := hnamed.1
    rw [h₁, h₂, h₃]
    exact .mk i₁ i₂ i₃ hkey.1 hequals.1
  have hbody : IsBody pair.node table.node := by
    obtain ⟨i₁, h₁⟩ := htable.1
    obtain ⟨i₂, h₂⟩ := htokens.1
    obtain ⟨i₃, h₃⟩ := hperhaps.1
    obtain ⟨i₄, h₄⟩ := hpairs.1
    obtain ⟨i₅, h₅⟩ := hlist.1
    obtain ⟨i₆, h₆⟩ := hothers.1
    obtain ⟨i₇, h₇⟩ := hanother.1
    obtain ⟨i₈, h₈⟩ := htrailing.1
    rw [h₁, h₂, hanchor, h₃, h₄, h₅, h₆, h₇, h₈]
    exact .mk i₁ i₂ anchorId i₃ i₄ i₅ i₆ i₇ i₈ hseparator.1 hlast.1
  have L : Layout s₄.slots table.chain value.node pair.node table.node := by
    refine ⟨hcontent, hassignment, hbody, ?_⟩
    rw [(g'.trans g'').target?_eq]
    exact hfilled
  rw [hi]
  exact .mk i L htail.1

/-! ### The theorem -/

/-- A trace, if there is one, does not keep the grammar from being run on the text. -/
def RunsFreely (s : Session) (text : List Char) : Prop :=
  ∀ r s', keyValue s = (.ok r, s') → s'.RunsFreely text r.node

theorem RunsFreely.of_not_trace {s : Session} (hs : s.journal.trace = false) (text : List Char) :
    RunsFreely s text := by
  intro r s' hrun
  obtain ⟨r', s'', hbuild, hjournal, -⟩ := keyValue_builds s
  rw [hrun] at hbuild
  cases hbuild
  exact .of_not_trace (by rw [hjournal, hs])

/-- What the grammar makes of a text whose ending is derived. -/
theorem RunsFreely.endsWith {s : Session} (hfree : RunsFreely s text) :
    ∃ slots n, IsKeyValue slots n ∧ ∀ e, Derives slots text (.node n (.num 0)) e →
      EndsWith (fun fuel => parseKeyValue fuel s text)
        (e >>= fun result => Session.conclusion text result >>= firstOf) := by
  obtain ⟨r, s', hbuild, -, hr⟩ := keyValue_builds s
  refine ⟨s'.slots, r.node, hr, fun e he => ?_⟩
  have hlabel : r.node.label = .ok "and" := by
    generalize r.node = n at hr
    cases hr
    rfl
  exact firstToken_endsWith hbuild (hfree r s' hbuild) hlabel hr.resolved he

theorem RunsFreely.endsWith_meaning {s : Session} (hfree : RunsFreely s text)
    (sentence : Sentence text) :
    EndsWith (fun fuel => parseKeyValue fuel s text) (.ok sentence.body.meaning) := by
  obtain ⟨slots, n, hn, hends⟩ := hfree.endsWith
  have hend := hends _ (hn.derives sentence)
  have hall : Session.conclusion text (.success [sentence.body.meaning] (.num text.length)) =
      .ok [sentence.body.meaning] := Session.conclusion_success rfl
  simpa [bind, Except.bind, hall, firstOf] using hend

/-- On a sentence the parser ends with its dictionary. -/
theorem parseKeyValue_of_sentence {s : Session} (hs : s.journal.trace = false)
    (sentence : Sentence text) :
    EndsWith (fun fuel => parseKeyValue fuel s text) (.ok sentence.body.meaning) :=
  (RunsFreely.of_not_trace hs text).endsWith_meaning sentence

/-- On any other text it ends with a parse failure. -/
theorem parseKeyValue_of_no_sentence {s : Session} (hs : s.journal.trace = false)
    (hno : ¬ Nonempty (Sentence text)) :
    ∃ failure, EndsWith (fun fuel => parseKeyValue fuel s text) (.error (.parse failure)) := by
  obtain ⟨slots, n, hn, hends⟩ := (RunsFreely.of_not_trace hs text).endsWith
  obtain ⟨e, he, hmeets⟩ := hn.answers text
  have hend := hends e he
  cases e with
  | error f => exact hmeets.elim
  | ok result =>
    rcases Session.conclusion_cases text result with ⟨tokens, q, rfl, hq⟩ | ⟨failure, hfailure⟩
    · exact absurd (hmeets hq) hno
    · simp only [bind, Except.bind, hfailure] at hend
      exact ⟨failure, hend⟩

/-- **The key/value parser accepts its grammar and builds the right dictionary.** It ends with
a dictionary exactly if the text derives from a body that means it; on a text that derives
from none it ends with a parse failure; and it raises nothing else. -/
theorem parseKeyValue_correct (s : Session) (hs : s.journal.trace = false) (text : List Char) :
    (∀ d, EndsWith (fun fuel => parseKeyValue fuel s text) (.ok d) ↔
        ∃ sentence : Sentence text, sentence.body.meaning = d) ∧
      (¬ Nonempty (Sentence text) →
        ∃ failure, EndsWith (fun fuel => parseKeyValue fuel s text) (.error (.parse failure))) ∧
      ∀ fuel f, parseKeyValue fuel s text = .raised f → ∃ failure, f = .parse failure := by
  refine ⟨fun d => ⟨fun hd => ?_, ?_⟩, parseKeyValue_of_no_sentence hs, fun fuel f hf => ?_⟩
  · obtain ⟨fuel, hrun⟩ := hd.exists_run
    by_cases hsentence : Nonempty (Sentence text)
    · obtain ⟨sentence⟩ := hsentence
      have heq := (parseKeyValue_of_sentence hs sentence).eq_of_run hrun
      exact ⟨sentence, (Except.ok.inj heq).symm⟩
    · obtain ⟨failure, hfailure⟩ := parseKeyValue_of_no_sentence hs hsentence
      cases hfailure.eq_of_run hrun
  · rintro ⟨sentence, rfl⟩
    exact parseKeyValue_of_sentence hs sentence
  · have hrun : parseKeyValue fuel s text = .ofExcept (.error f) := hf
    by_cases hsentence : Nonempty (Sentence text)
    · obtain ⟨sentence⟩ := hsentence
      cases (parseKeyValue_of_sentence hs sentence).eq_of_run hrun
    · obtain ⟨failure, hfailure⟩ := parseKeyValue_of_no_sentence hs hsentence
      exact ⟨failure, Except.error.inj (hfailure.eq_of_run hrun)⟩

/-- A text with a block, a quoted quote, a key that is bound twice, and a last separator. -/
theorem parseKeyValue_correct_rebound :
    (Session.new (Journal.new false "WARNING")).journal.trace = false ∧
      EndsWith (fun fuel => parseKeyValue fuel (Session.new (Journal.new false "WARNING"))
        "k=1;m=\x7bn=\"\\\"\"\x7d;k=2;".toList)
        (.ok (.dict [(.text "k", .text "2"), (.text "m", .dict [(.text "n", .text "\"")])])) := by
  let none : Blanks := ⟨[], by decide⟩
  let pair (c : Char) (hc : startsKey c = true) (content : Content) : Pair :=
    .mk none ⟨[c], c, [], rfl, hc, by simp⟩ none content
  let bare (c : Char) (hc : isBareChar c = true) : Content :=
    .bare none ⟨[c], by simp, by simpa using hc⟩
  let quoted : Content := .quoted none ⟨['\\', '"'], ['"'], .pair (by decide) .nil⟩
  let block : Content :=
    .block none (.pairs (pair 'n' (by decide) quoted) .nil Option.none) none
  let body : Body := .pairs (pair 'k' (by decide) (bare '1' (by decide)))
    (.cons none (pair 'm' (by decide) block)
      (.cons none (pair 'k' (by decide) (bare '2' (by decide))) .nil)) (some none)
  let sentence : Sentence "k=1;m=\x7bn=\"\\\"\"\x7d;k=2;".toList := ⟨body, none, rfl⟩
  exact ⟨rfl, ((parseKeyValue_correct _ rfl _).1 _).mpr ⟨sentence, rfl⟩⟩

end LeafGrammar.Blocks
