import LeafGrammar.Proofs.Engine.Answers
import LeafGrammar.Proofs.Pattern.Reads
import LeafGrammar.Proofs.Session.Parsing

/-!
# How lexemes are read

A lexeme reads optional white space and then a token; a symbol does the same and drops the
token. The rules are known by their shape (`IsSpaces`, `IsLexeme`, `IsSymbol`): the numbers
of the nodes do not matter to what they do.

`Scans` is all that a grammar needs to know of its lexemes and symbols. A token that is
there is read; whatever is read is a token after blanks; and where no token comes after
the blanks the rule fails.
-/

namespace LeafGrammar.Grammar

open Pattern (Reads Stops stops_nil stops_cons)

variable {slots : Slots} {text : List Char} {k : Nat} {p : Pattern}

/-! ### Pieces of a text -/

/-- Going on from where a piece of the text ends. -/
theorem drop_add_length {w u : List Char} (h : text.drop k = w ++ u) :
    text.drop (k + w.length) = u := by
  rw [← List.drop_drop, h, List.drop_left]

theorem add_length_le_length {w : List Char} (h : w <+: text.drop k) (hne : w ≠ []) :
    k + w.length ≤ text.length := by
  have hle := h.length_le
  have hpos := List.length_pos_iff.mpr hne
  rw [List.length_drop] at hle
  omega

/-- One piece of text behind the other. -/
theorem prefix_append {w v : List Char} (hw : w <+: text.drop k)
    (hv : v <+: text.drop (k + w.length)) : w ++ v <+: text.drop k := by
  obtain ⟨u, hu⟩ := hw
  rw [drop_add_length hu.symm] at hv
  obtain ⟨u', rfl⟩ := hv
  exact ⟨u', by rw [← hu, List.append_assoc]⟩

/-! ### Leaves -/

theorem leafResult_num (p : Pattern) (text : List Char) (k : Nat) :
    leafResult p text (.num k) =
      if (text.drop k).isEmpty then .failure (.num k) (some .pastEnd)
      else
        match p.matched? (text.drop k) with
        | none => .failure (.num k) none
        | some found => .success [.text (String.ofList found)] (.num (k + found.length : Nat)) := by
  have hpos : decide (0 ≤ (Integral.num k).toInt) = true := decide_eq_true (Int.natCast_nonneg k)
  simp only [leafResult, hpos, Bool.and_true]
  rfl

theorem leafResult_of_matched {w u : List Char} (htext : text.drop k = w ++ u) (hne : w ≠ [])
    (h : p.matched? (w ++ u) = some w) :
    leafResult p text (.num k) =
      .success [.text (String.ofList w)] (.num (k + w.length : Nat)) := by
  have hempty : (w ++ u).isEmpty = false := by simp [hne]
  rw [leafResult_num, htext, hempty, h]
  rfl

theorem leafResult_of_not_matched (h : p.matched? (text.drop k) = none) :
    ∃ c, leafResult p text (.num k) = .failure (.num k) c := by
  rw [leafResult_num, h]
  split
  · exact ⟨_, rfl⟩
  · exact ⟨_, rfl⟩

/-- A pattern whose words are not empty gives a word, or fails. -/
theorem leafResult_cases {lang : List Char → Prop} {more : Char → Bool} (hp : p.Reads lang more)
    (hne : ∀ w, lang w → w ≠ []) (text : List Char) (k : Nat) :
    (∃ w, lang w ∧ w <+: text.drop k ∧ leafResult p text (.num k) =
        .success [.text (String.ofList w)] (.num (k + w.length : Nat))) ∨
      ∃ c, leafResult p text (.num k) = .failure (.num k) c := by
  cases hm : p.matched? (text.drop k) with
  | none => exact .inr (leafResult_of_not_matched hm)
  | some w =>
    obtain ⟨hw, u, hu⟩ := hp.sound hm
    exact .inl ⟨w, hw, ⟨u, hu⟩, leafResult_of_matched hu.symm (hne w hw) (hu ▸ hm)⟩

/-! ### White space -/

/-- White space only. -/
def IsBlanks (w : List Char) : Prop := ∀ c ∈ w, Text.isBlank c = true

instance (w : List Char) : Decidable (IsBlanks w) :=
  List.decidableBAll (Text.isBlank · = true) w

/-- Some white space, or none. -/
abbrev Blanks := { w : List Char // IsBlanks w }

/-- The pattern for some white space. -/
def blankRun : Pattern :=
  .ofRegex "\\s+" (.loop (.one (.item ⟨.named .blank false, false⟩) .exact) 1 none .greedy)

theorem read_blankRun : Pattern.read "\\s+" .none = .ok blankRun := rfl

theorem reads_blankRun : blankRun.Reads (Pattern.IsRun Text.isBlank) Text.isBlank := by
  have hset : (Pattern.CharSet.item ⟨.named .blank false, false⟩).contains .exact = Text.isBlank := by
    funext c
    simp [Pattern.CharSet.contains, Pattern.Signed.accepts, Pattern.Caseness.variants,
      Pattern.Item.contains, Pattern.NamedClass.contains]
  rw [← hset]
  exact Pattern.reads_run _ _

/-- The shape of optional white space. -/
inductive IsSpaces : Node → Prop where
  | mk (i j k : NodeId) :
      IsSpaces (.rep i (.map j (.leaf k blankRun) discard) (.num 0) (some (.num 1)))

theorem IsSpaces.points_eq {n : Node} (h : IsSpaces n) : n.points = [] := by
  cases h
  rfl

/-- Optional white space reads all the white space there is. -/
theorem IsSpaces.derives {n : Node} {b u : List Char} (h : IsSpaces n)
    (htext : text.drop k = b ++ u) (hb : IsBlanks b) (hu : Stops Text.isBlank u) :
    Derives slots text (.node n (.num k)) (.ok (.success [] (.num (k + b.length : Nat)))) := by
  obtain ⟨i, j, l⟩ := h
  by_cases hne : b = []
  · subst hne
    have hnone : blankRun.matched? (text.drop k) = none := by
      cases hm : blankRun.matched? (text.drop k) with
      | none => rfl
      | some w =>
        obtain ⟨hw, v, hv⟩ := reads_blankRun.sound hm
        rw [htext, List.nil_append] at hv
        subst hv
        obtain ⟨c, w, rfl⟩ := List.exists_cons_of_ne_nil hw.1
        rw [List.cons_append, stops_cons] at hu
        rw [hw.2 c List.mem_cons_self] at hu
        cases hu
    obtain ⟨c, hc⟩ := leafResult_of_not_matched hnone
    have hleaf : Derives slots text (.node (.leaf l blankRun) (.num k)) (.ok (.failure (.num k) c)) :=
      hc ▸ .leaf
    exact .optionalFailure (.mapStop hleaf trivial)
  · have hm : blankRun.matched? (b ++ u) = some b := reads_blankRun.complete ⟨hne, hb⟩ hu
    have hleaf : Derives slots text (.node (.leaf l blankRun) (.num k))
        (.ok (.success [.text (String.ofList b)] (.num (k + b.length : Nat)))) :=
      leafResult_of_matched htext hne hm ▸ .leaf
    have hpos : 0 < b.length := List.length_pos_iff.mpr hne
    refine .optionalSuccess (.map hleaf) ?_
    simp only [Integral.toInt_num]
    omega

theorem spaces_makes {s : Session} :
    Build.Makes spaces s fun r s' =>
      IsSpaces r.node ∧ r.chain = s.slots.size ∧ s.slots.size < s'.slots.size := by
  refine (Build.leaf_makes read_blankRun).bind fun run s₁ _ h => ?_
  obtain ⟨⟨i, hi⟩, hchain, hlt⟩ := h
  refine (Build.map_makes run discard).bind fun silent s₂ hg h => ?_
  obtain ⟨⟨j, hj⟩, hchain'⟩ := h
  refine (Build.optional_makes silent).mono fun r s₃ hg' h => ?_
  obtain ⟨⟨l, hl⟩, hchain''⟩ := h
  refine ⟨?_, by rw [hchain'', hchain', hchain], ?_⟩
  · rw [hl, hj, hi]
    exact .mk l j i
  · exact Nat.lt_of_lt_of_le hlt (hg.trans hg').size_le

/-! ### Tokens -/

/-- A pattern for tokens: its words are not empty and do not start with white space. -/
structure IsToken (p : Pattern) (lang : List Char → Prop) (more : Char → Bool) : Prop
    extends Reads p lang more where
  starts : ∀ {w : List Char}, lang w → w ≠ [] ∧ Stops Text.isBlank w

/-- The pattern for a single character. -/
def punctuation (source : String) (c : Char) : Pattern := .ofRegex source (.one (.ofChar c) .exact)

theorem punctuation_isToken (source : String) {c : Char} (hc : Text.isBlank c = false) :
    IsToken (punctuation source c) (· = [c]) fun _ => false := by
  have hset : (Pattern.CharSet.ofChar c).contains .exact = (· == c) := by
    funext d
    exact Pattern.contains_ofChar d c
  have hp : (punctuation source c).Reads (Pattern.IsSingle (· == c)) fun _ => false :=
    hset ▸ Pattern.reads_one _ _
  refine ⟨hp.congr fun w => ?_, ?_⟩
  · simp [Pattern.IsSingle]
  · rintro w rfl
    exact ⟨by simp, stops_cons.mpr hc⟩

theorem openingParenthesis_isToken : IsToken (punctuation "\\(" '(') (· = ['(']) fun _ => false :=
  punctuation_isToken _ (by decide)

theorem closingParenthesis_isToken : IsToken (punctuation "\\)" ')') (· = [')']) fun _ => false :=
  punctuation_isToken _ (by decide)

/-- The shape of a token after optional white space. -/
inductive IsLexeme (p : Pattern) : Node → Prop where
  | mk (i j : NodeId) {b : Node} : IsSpaces b → IsLexeme p (.seq i b (.leaf j p))

/-- The shape of such a token that is dropped. -/
inductive IsSymbol (p : Pattern) : Node → Prop where
  | mk (i : NodeId) {n : Node} : IsLexeme p n → IsSymbol p (.map i n discard)

theorem IsLexeme.points_eq {n : Node} (h : IsLexeme p n) : n.points = [] := by
  obtain ⟨i, j, hb⟩ := h
  simp [Node.points, hb.points_eq]

theorem IsSymbol.points_eq {n : Node} (h : IsSymbol p n) : n.points = [] := by
  obtain ⟨i, hn⟩ := h
  exact hn.points_eq

/-- A lexeme is its leaf behind the white space. -/
theorem IsLexeme.derives {n : Node} {b u : List Char} (h : IsLexeme p n)
    (htext : text.drop k = b ++ u) (hb : IsBlanks b) (hu : Stops Text.isBlank u) :
    Derives slots text (.node n (.num k)) (.ok (leafResult p text (.num (k + b.length : Nat)))) := by
  obtain ⟨i, j, hspaces⟩ := h
  rw [← Finish.after_nil (.ok (leafResult _ _ _))]
  exact .seq (hspaces.derives htext hb hu) .leaf

/-- How a rule reads tokens of a language: one that is there, with `give` of it as the
tokens; nothing else; and it fails where none is. -/
structure Scans (slots : Slots) (text : List Char) (n : Node) (lang : List Char → Prop)
    (more : Char → Bool) (give : List Char → List Value) : Prop where
  reads : ∀ {k : Nat} {b w u : List Char}, text.drop k = b ++ (w ++ u) → IsBlanks b → lang w →
    Stops more u → Derives slots text (.node n (.num k))
      (.ok (.success (give w) (.num (k + (b ++ w).length : Nat))))
  answers : ∀ k : Nat, Answers slots text n (.num k)
    (Finish.Meets (fun tokens q => ∃ b w, IsBlanks b ∧ lang w ∧ b ++ w <+: text.drop k ∧
      tokens = give w ∧ q = .num (k + (b ++ w).length : Nat)) True fun _ => False)
  fails : ∀ {k : Nat} {b u : List Char}, text.drop k = b ++ u → IsBlanks b →
    Stops Text.isBlank u → (∀ w, lang w → ¬ w <+: u) →
      ∃ q c, Derives slots text (.node n (.num k)) (.ok (.failure q c))

/-- The token of a lexeme is its text. -/
def tokenOf (w : List Char) : List Value := [.text (String.ofList w)]

variable {lang : List Char → Prop} {more : Char → Bool} {give : List Char → List Value}

theorem IsLexeme.scans {n : Node} (h : IsLexeme p n) (hp : IsToken p lang more) :
    Scans slots text n lang more tokenOf := by
  constructor
  · intro k b w u htext hb hw hu
    obtain ⟨hne, hstart⟩ := hp.starts hw
    have hstart' : Stops Text.isBlank (w ++ u) := by
      obtain ⟨c, w, rfl⟩ := List.exists_cons_of_ne_nil hne
      exact stops_cons.mpr (stops_cons.mp hstart)
    have hd : Derives slots text (.node n (.num k)) _ := h.derives htext hb hstart'
    rw [leafResult_of_matched (drop_add_length htext) hne (hp.complete hw hu)] at hd
    rw [List.length_append, ← Nat.add_assoc]
    exact hd
  · intro k
    obtain ⟨b, u, htext, hb, hu⟩ := Pattern.exists_run Text.isBlank (text.drop k)
    have hd : Derives slots text (.node n (.num k)) _ := h.derives htext hb hu
    rcases leafResult_cases hp.toReads (fun w hw => (hp.starts hw).1) text (k + b.length) with
      ⟨w, hw, ⟨v, hv⟩, hsome⟩ | ⟨c, hnone⟩
    · rw [hsome] at hd
      refine ⟨_, hd, b, w, hb, hw, ⟨v, ?_⟩, rfl, ?_⟩
      · rw [drop_add_length htext] at hv
        rw [List.append_assoc, hv, htext]
      · rw [List.length_append, ← Nat.add_assoc]
    · rw [hnone] at hd
      exact ⟨_, hd, trivial⟩
  · intro k b u htext hb hu hno
    have hd : Derives slots text (.node n (.num k)) _ := h.derives htext hb hu
    rcases leafResult_cases hp.toReads (fun w hw => (hp.starts hw).1) text (k + b.length) with
      ⟨w, hw, hprefix, -⟩ | ⟨c, hnone⟩
    · rw [drop_add_length htext] at hprefix
      exact absurd hprefix (hno w hw)
    · rw [hnone] at hd
      exact ⟨_, c, hd⟩

theorem IsSymbol.scans {n : Node} (h : IsSymbol p n) (hp : IsToken p lang more) :
    Scans slots text n lang more fun _ => [] := by
  obtain ⟨i, hn⟩ := h
  have hs : Scans slots text _ lang more tokenOf := hn.scans hp
  constructor
  · intro k b w u htext hb hw hu
    exact .map (hs.reads htext hb hw hu)
  · intro k
    refine Answers.map ((hs.answers k).imp fun e he => ?_)
    rcases e with f | ⟨tokens, q⟩ | ⟨q, c⟩
    · exact he.elim
    · obtain ⟨b, w, hb, hw, hprefix, -, hq⟩ := he
      exact ⟨b, w, hb, hw, hprefix, rfl, hq⟩
    · exact fun _ _ => trivial
  · intro k b u htext hb hu hno
    obtain ⟨q, c, hd⟩ := hs.fails htext hb hu hno
    exact ⟨q, c, .mapStop hd trivial⟩

/-! ### White space after a rule -/

variable {n tail : Node}

/-- After a word that a rule has read the white space is read too. -/
theorem IsSpaces.derives_seq (h : IsSpaces tail) (i : NodeId) {w b : List Char}
    {tokens : List Value} (htext : text.drop k = w ++ b) (hb : IsBlanks b)
    (hn : Derives slots text (.node n (.num k)) (.ok (.success tokens (.num (k + w.length : Nat))))) :
    Derives slots text (.node (.seq i n tail) (.num k))
      (.ok (.success tokens (.num (k + (w ++ b).length : Nat)))) := by
  have htail : Derives slots text (.node tail (.num (k + w.length : Nat))) _ :=
    h.derives (u := []) (by rw [drop_add_length htext, List.append_nil]) hb (stops_nil _)
  have hseq : Derives slots text (.node (.seq i n tail) (.num k)) _ := .seq hn htail
  rw [Finish.after_success, List.append_nil, Nat.add_assoc, ← List.length_append] at hseq
  exact hseq

/-- If this uses up a text of which the rule reads trees, then the text is one of the trees
and white space. -/
theorem IsSpaces.answers_seq {α : Type} {fault : Fault → Prop} (h : IsSpaces tail) (i : NodeId)
    (written : α → List Char)
    (hn : Answers slots text n (.num k) (Finish.Meets
      (fun _ q => ∃ t, written t <+: text.drop k ∧ q = .num (k + (written t).length : Nat))
      True fault)) :
    Answers slots text (.seq i n tail) (.num k) (Finish.Meets
      (fun _ q => q.toInt = text.length → ∃ t, ∃ b : Blanks, written t ++ b.val = text.drop k)
      True fault) := by
  refine .seq (hn.imp fun e he => ?_)
  rcases e with f | ⟨tokens, q⟩ | ⟨q, c⟩
  · exact he
  · obtain ⟨t, ⟨u, hu⟩, rfl⟩ := he
    obtain ⟨b, v, rfl, hb, hv⟩ := Pattern.exists_run Text.isBlank u
    refine ⟨_, h.derives (drop_add_length hu.symm) hb hv, fun hq => ⟨t, ⟨b, hb⟩, ?_⟩⟩
    have hlen : (written t ++ (b ++ v)).length = text.length - k := by rw [hu, List.length_drop]
    have hnil : v = [] := by
      rw [← List.length_eq_zero_iff]
      simp only [Integral.toInt_num, List.length_append] at hq hlen
      omega
    rw [← hu, hnil, List.append_nil]
  · exact fun _ _ => trivial

/-! ### What comes after a phrase -/

/-- White space, and then one of the characters or nothing. -/
def FollowedBy (followers : List Char) (u : List Char) : Prop :=
  ∃ b v, u = b ++ v ∧ IsBlanks b ∧ ∀ c ∈ v.head?, c ∈ followers

namespace FollowedBy

variable {followers : List Char} {u : List Char}

theorem mono {others : List Char} (h : FollowedBy followers u)
    (hsub : ∀ c ∈ followers, c ∈ others) : FollowedBy others u := by
  obtain ⟨b, v, rfl, hb, hv⟩ := h
  exact ⟨b, v, rfl, hb, fun c hc => hsub c (hv c hc)⟩

theorem token (before : Blanks) {c : Char} (hc : c ∈ followers) (rest : List Char) :
    FollowedBy followers (before.val ++ c :: rest) :=
  ⟨before.val, c :: rest, rfl, before.2, by simpa using hc⟩

theorem blanks (tail : Blanks) : FollowedBy followers tail.val :=
  ⟨tail.val, [], by simp, tail.2, by simp⟩

/-- Neither white space nor a follower makes a word longer. -/
theorem stops (h : FollowedBy followers u) (hblank : ∀ c, Text.isBlank c = true → more c = false)
    (hmore : ∀ c ∈ followers, more c = false) : Stops more u := by
  obtain ⟨b, v, rfl, hb, hv⟩ := h
  cases b with
  | nil => exact fun c hc => hmore c (hv c hc)
  | cons c b => exact stops_cons.mpr (hblank c (hb c List.mem_cons_self))

end FollowedBy

/-- A rule fails where no word of its language starts as the text goes on. -/
theorem Scans.fails_of_followedBy {n : Node} {followers : List Char}
    (h : Scans slots text n lang more give) (hu : FollowedBy followers (text.drop k))
    (hplain : ∀ c ∈ followers, Text.isBlank c = false)
    (hlang : ∀ w, lang w → ∃ c v, w = c :: v ∧ c ∉ followers) :
    ∃ q c, Derives slots text (.node n (.num k)) (.ok (.failure q c)) := by
  obtain ⟨b, v, htext, hb, hv⟩ := hu
  refine h.fails htext hb (fun c hc => hplain c (hv c hc)) fun w hw => ?_
  obtain ⟨c, w, rfl, hc⟩ := hlang w hw
  rintro ⟨rest, rfl⟩
  exact hc (hv c rfl)

/-! ### Building lexemes -/

theorem lexeme_makes {s : Session} {source : String} (h : Pattern.read source .none = .ok p) :
    Build.Makes (lexeme source) s fun r s' =>
      IsLexeme p r.node ∧ r.chain = s.slots.size ∧ s.slots.size < s'.slots.size := by
  refine spaces_makes.bind fun blank s₁ _ hblank => ?_
  obtain ⟨hspaces, hchain, hlt⟩ := hblank
  refine (Build.leaf_makes h).bind fun token s₂ hg htoken => ?_
  obtain ⟨⟨j, hj⟩, -⟩ := htoken
  refine (Build.andThen_makes blank token).mono fun r s₃ hg' hr => ?_
  obtain ⟨⟨i, hi⟩, hchain'⟩ := hr
  refine ⟨?_, by rw [hchain', hchain], Nat.lt_of_lt_of_le hlt (hg.trans hg').size_le⟩
  rw [hi, hj]
  exact .mk i j hspaces

theorem symbol_makes {s : Session} {source : String} (h : Pattern.read source .none = .ok p) :
    Build.Makes (symbol source) s fun r s' =>
      IsSymbol p r.node ∧ r.chain = s.slots.size ∧ s.slots.size < s'.slots.size := by
  refine (lexeme_makes h).bind fun token s₁ _ htoken => ?_
  obtain ⟨hlexeme, hchain, hlt⟩ := htoken
  refine (Build.map_makes token discard).mono fun r s₂ hg hr => ?_
  obtain ⟨⟨i, hi⟩, hchain'⟩ := hr
  refine ⟨?_, by rw [hchain', hchain], Nat.lt_of_lt_of_le hlt hg.size_le⟩
  rw [hi]
  exact .mk i hlexeme

end LeafGrammar.Grammar
