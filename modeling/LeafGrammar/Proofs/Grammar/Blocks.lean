import LeafGrammar.Proofs.Grammar.Lexeme
import LeafGrammar.Proofs.Text.Ranges

/-!
# Key/value texts

The language of the key/value grammar, without its rules:

    body  := (pair (';' pair)* ';'?)?
    pair  := KEY '=' value
    value := '{' body '}' | QUOTED | BARE

with optional white space before every token. A derivation tree holds the white space and
the words that were written, so it has one text and is well formed by its type.

The meaning of a body is a dictionary: every key stands at its first place and has its last
value (`dictOf`). A quoted value means what its spelling spells (`Spells`), a bare value
means itself.
-/

namespace LeafGrammar.Blocks

open Grammar (Blanks FollowedBy)

/-! ### Words -/

/-- Can a key start with the character? -/
def startsKey (c : Char) : Bool := ('A' ≤ c && c ≤ 'Z') || ('a' ≤ c && c ≤ 'z') || c == '_'

/-- Can a key go on with the character? -/
def continuesKey (c : Char) : Bool := Pattern.isWord c || c == '.' || c == '-'

/-- Can the character stand in a bare value? -/
def isBareChar (c : Char) : Bool :=
  !(Text.isBlank c || c == ';' || c == '{' || c == '}' || c == '=' || c == '"')

/-- A key as it is written. -/
abbrev Key := { w : List Char // Pattern.IsHeaded startsKey continuesKey w }

/-- A bare value as it is written. -/
abbrev Bare := { w : List Char // Pattern.IsRun isBareChar w }

/-- The first text spells the second: a character other than the quote and the backslash
spells itself, and a backslash with a character behind it, a line feed excepted, spells that
character. -/
inductive Spells : List Char → List Char → Prop where
  | nil : Spells [] []
  | plain {c : Char} {w s : List Char} : c ≠ '"' → c ≠ '\\' → Spells w s → Spells (c :: w) (c :: s)
  | pair {c : Char} {w s : List Char} : c ≠ '\n' → Spells w s → Spells ('\\' :: c :: w) (c :: s)

/-- The first text renders the second: every character stands for itself, or has a backslash
in front of it. -/
inductive Renders : List Char → List Char → Prop where
  | nil : Renders [] []
  | plain {c : Char} {w s : List Char} :
      c ≠ '"' → c ≠ '\\' → Renders w s → Renders (c :: w) (c :: s)
  | pair {c : Char} {w s : List Char} : Renders w s → Renders ('\\' :: c :: w) (c :: s)

/-- Spelling is rendering without a line feed behind a backslash. -/
theorem Spells.renders {w s : List Char} (h : Spells w s) : Renders w s := by
  induction h with
  | nil => exact .nil
  | plain hq hb _ ih => exact .plain hq hb ih
  | pair _ _ ih => exact .pair ih

/-- A quoted value as it is written, and what it spells. -/
structure Quoted where
  spelling : List Char
  content : List Char
  spells : Spells spelling content

/-- A quoted value with its quotes. -/
def Quoted.text (q : Quoted) : List Char := '"' :: (q.spelling ++ ['"'])

/-! ### Trees -/

mutual

/-- The derivation trees of a body. -/
inductive Body where
  | empty
  /-- With a last separator, and white space before it, or without one. -/
  | pairs (first : Pair) (others : Pairs) (trailing : Option Blanks)

/-- The derivation trees of a pair. -/
inductive Pair where
  | mk (beforeKey : Blanks) (key : Key) (beforeSign : Blanks) (content : Content)

/-- Pairs, each with the separator in front of it. -/
inductive Pairs where
  | nil
  | cons (before : Blanks) (pair : Pair) (rest : Pairs)

/-- The derivation trees of a value. -/
inductive Content where
  | block (before : Blanks) (body : Body) (after : Blanks)
  | quoted (before : Blanks) (q : Quoted)
  | bare (before : Blanks) (w : Bare)

end

/-- The text of the last separator. -/
def trailingText : Option Blanks → List Char
  | none => []
  | some before => before.val ++ [';']

mutual

/-- The text that a body is derived from. -/
def Body.text : Body → List Char
  | .empty => []
  | .pairs first others trailing => first.text ++ others.text ++ trailingText trailing

/-- The text of a pair. -/
def Pair.text : Pair → List Char
  | .mk beforeKey key beforeSign content =>
    beforeKey.val ++ key.val ++ (beforeSign.val ++ ['=']) ++ content.text

/-- The text of pairs with their separators. -/
def Pairs.text : Pairs → List Char
  | .nil => []
  | .cons before pair rest => before.val ++ [';'] ++ pair.text ++ rest.text

/-- The text of a value. -/
def Content.text : Content → List Char
  | .block before body after => before.val ++ ['{'] ++ body.text ++ (after.val ++ ['}'])
  | .quoted before q => before.val ++ q.text
  | .bare before w => before.val ++ w.val

end

/-! ### Meanings -/

/-- The dictionary of some entries: every key at its first place, with its last value. -/
def dictOf : List (String × Value) → List (String × Value)
  | [] => []
  | (k, v) :: rest => (k, (rest.reverse.lookup k).getD v) :: (dictOf rest).filter (·.1 != k)

/-- A dictionary as a value. -/
def dictValue (entries : List (String × Value)) : Value :=
  .dict ((dictOf entries).map fun (k, v) => (.text k, v))

mutual

/-- The entries that a body binds, in order. -/
def Body.entries : Body → List (String × Value)
  | .empty => []
  | .pairs first others _ => first.entry :: others.entries

/-- The key and the value of a pair. -/
def Pair.entry : Pair → String × Value
  | .mk _ key _ content => (String.ofList key.val, content.meaning)

/-- The entries of some pairs. -/
def Pairs.entries : Pairs → List (String × Value)
  | .nil => []
  | .cons _ pair rest => pair.entry :: rest.entries

/-- What a value means. -/
def Content.meaning : Content → Value
  | .block _ body _ => dictValue body.entries
  | .quoted _ q => .text (String.ofList q.content)
  | .bare _ w => .text (String.ofList w.val)

end

/-- What a body means. -/
def Body.meaning (b : Body) : Value := dictValue b.entries

/-! ### Longer lists of pairs -/

/-- One more pair at the end. -/
def Pairs.snoc : Pairs → Blanks → Pair → Pairs
  | .nil, before, pair => .cons before pair .nil
  | .cons b p rest, before, pair => .cons b p (rest.snoc before pair)

theorem Pairs.text_snoc (before : Blanks) (pair : Pair) : ∀ pairs : Pairs,
    (pairs.snoc before pair).text = pairs.text ++ (before.val ++ [';'] ++ pair.text)
  | .nil => by simp [Pairs.snoc, Pairs.text]
  | .cons b p rest => by simp [Pairs.snoc, Pairs.text, Pairs.text_snoc before pair rest]

theorem Pairs.entries_snoc (before : Blanks) (pair : Pair) : ∀ pairs : Pairs,
    (pairs.snoc before pair).entries = pairs.entries ++ [pair.entry]
  | .nil => by simp [Pairs.snoc, Pairs.entries]
  | .cons b p rest => by simp [Pairs.snoc, Pairs.entries, Pairs.entries_snoc before pair rest]

/-! ### Binding keys one after the other -/

/-- Bind a key: in its place if it has one, else at the end. -/
def rebind (k : String) (v : Value) : List (String × Value) → List (String × Value)
  | [] => [(k, v)]
  | (k', v') :: rest => if k' = k then (k', v) :: rest else (k', v') :: rebind k v rest

theorem filter_rebind_same (k : String) (v : Value) (l : List (String × Value)) :
    (rebind k v l).filter (·.1 != k) = l.filter (·.1 != k) := by
  induction l with
  | nil => simp [rebind]
  | cons e l ih =>
    obtain ⟨k', v'⟩ := e
    by_cases h : k' = k
    · simp [rebind, h]
    · simp [rebind, h, ih]

theorem filter_rebind_other {k k' : String} (h : k ≠ k') (v : Value) (l : List (String × Value)) :
    (rebind k v l).filter (·.1 != k') = rebind k v (l.filter (·.1 != k')) := by
  induction l with
  | nil => simp [rebind, h]
  | cons e l ih =>
    obtain ⟨k₁, v₁⟩ := e
    by_cases h₁ : k₁ = k
    · subst h₁
      simp [rebind, h]
    · by_cases h₂ : k₁ = k'
      · subst h₂
        simp [rebind, h₁, ih]
      · simp [rebind, h₁, h₂, ih]

/-- A further entry binds its key. -/
theorem dictOf_snoc (k : String) (v : Value) : ∀ es : List (String × Value),
    dictOf (es ++ [(k, v)]) = rebind k v (dictOf es)
  | [] => rfl
  | (k', v') :: es => by
    have hlast : (es ++ [(k, v)]).reverse.lookup k' =
        if k' = k then some v else es.reverse.lookup k' := by
      rw [List.reverse_append, List.reverse_singleton, List.singleton_append, List.lookup_cons]
      by_cases h : k' = k
      · simp [h]
      · have hne : (k' == k) = false := by simpa using h
        simp [h, hne]
    rw [List.cons_append, dictOf, dictOf, dictOf_snoc k v es, hlast]
    by_cases h : k' = k
    · subst h
      simp [rebind, filter_rebind_same]
    · rw [filter_rebind_other (Ne.symm h)]
      simp [rebind, h]

/-- The same on the entries of a dictionary. -/
theorem bindKey_map (k : String) (v : Value) (l : List (String × Value)) :
    Value.bindKey (.text k) v (l.map fun e => (.text e.1, e.2)) =
      (rebind k v l).map fun e => (.text e.1, e.2) := by
  induction l with
  | nil => rfl
  | cons e l ih =>
    obtain ⟨k', v'⟩ := e
    by_cases h : k' = k
    · simp [Value.bindKey, Value.sameKey, rebind, h]
    · simp [Value.bindKey, Value.sameKey, rebind, h, ih]

/-! ### What may come after a phrase -/

/-- After a pair comes the next one with its separator, or the last separator, or what comes
after the body. -/
theorem Pairs.followed (others : Pairs) (trailing : Option Blanks) {u : List Char}
    (hu : FollowedBy ['}'] u) :
    FollowedBy [';', '}'] (others.text ++ (trailingText trailing ++ u)) := by
  match others, trailing with
  | .nil, none => exact hu.mono (by simp)
  | .nil, some before =>
    have htext : Pairs.nil.text ++ (trailingText (some before) ++ u) = before.val ++ ';' :: u := by
      simp [Pairs.text, trailingText]
    rw [htext]
    exact .token before (by simp) u
  | .cons before pair rest, trailing =>
    have htext : (Pairs.cons before pair rest).text ++ (trailingText trailing ++ u) =
        before.val ++ ';' :: (pair.text ++ rest.text ++ (trailingText trailing ++ u)) := by
      simp [Pairs.text]
    rw [htext]
    exact .token before (by simp) _

/-- A bare value ends there. -/
theorem stops_bare {u : List Char} (hu : FollowedBy [';', '}'] u) : Pattern.Stops isBareChar u := by
  refine hu.stops (fun c hblank => ?_)
    (List.forall_mem_cons.mpr ⟨by decide, List.forall_mem_singleton.mpr (by decide)⟩)
  simp [isBareChar, hblank]

/-- A key ends before the sign and the white space in front of it. -/
theorem stops_key {u : List Char} (hu : FollowedBy ['='] u) : Pattern.Stops continuesKey u := by
  refine hu.stops (fun c hblank => ?_) (List.forall_mem_singleton.mpr (by decide +kernel))
  have hpoint : c ≠ '.' := by
    rintro rfl
    exact absurd hblank (by decide)
  have hdash : c ≠ '-' := by
    rintro rfl
    exact absurd hblank (by decide)
  simp [continuesKey, Pattern.isWord_of_isBlank hblank, hpoint, hdash]

/-- A key does not start with white space. -/
theorem not_isBlank_of_startsKey {c : Char} (h : startsKey c = true) : Text.isBlank c = false := by
  have hcode : 65 ≤ c.toNat ∧ c.toNat ≤ 122 := by
    simp only [startsKey, Bool.or_eq_true, Bool.and_eq_true, decide_eq_true_eq, beq_iff_eq] at h
    rcases h with (⟨hlo, hhi⟩ | ⟨hlo, hhi⟩) | rfl
    · exact ⟨hlo, Nat.le_trans hhi (by decide)⟩
    · exact ⟨Nat.le_trans (by decide) hlo, hhi⟩
    · decide
  cases hb : Text.isBlank c with
  | false => rfl
  | true =>
    obtain ⟨r, hr, hlo, hhi⟩ := Text.Ranges.exists_of_contains hb
    have hout : ∀ r ∈ Text.blankRanges, r.2 < 65 ∨ 122 < r.1 := by decide
    have := hout r hr
    omega

end LeafGrammar.Blocks
