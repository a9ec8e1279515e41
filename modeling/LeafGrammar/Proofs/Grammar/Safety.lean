import LeafGrammar.Proofs.Engine.Repetition
import LeafGrammar.Proofs.Engine.Waiting
import LeafGrammar.Proofs.Grammar.Calculator
import LeafGrammar.Proofs.Grammar.Evaluation

/-!
# What the calculator can end with

The actions of the calculator take their tokens for granted: the one reads the first token as a
number, the other takes operands and operators in turn and looks the operators up. On tokens of
another shape they would raise faults of their own. They are never given any (`IsHanded`), in
whatever rule, at whatever offset and whether or not what they give is kept: on a text that is not a
sentence they are run as well, and what they have computed is given up later.

So the calculator ends with a number, with a parse failure, or with a fault of arithmetic
(`calculate_safe`). Among these is the refusal of a number with a digit of a later script, which the
pattern takes for a digit though it has no value (`calculate_refuses_laterZero`).
-/

namespace LeafGrammar

/-- Whatever a node ends with is what it answers. -/
theorem Answers.of_derives {slots : Slots} {text : List Char} {n : Node} {pos : Integral}
    {P : Finish → Prop} (h : Answers slots text n pos P) {e : Finish}
    (hd : Derives slots text (.node n pos) e) : P e := by
  obtain ⟨e', hd', he'⟩ := h
  rwa [Machine.derives_unique hd hd']

namespace Arithmetic

open Grammar

variable {slots : Slots} {slot : SlotId} {node : Phrase → Node} {text : List Char}

/-! ### What the actions are given -/

/-- The tokens that the actions of the calculator are made for. -/
inductive IsHanded (text : List Char) : Action → List Value → Prop where
  /-- White space and parentheses are dropped. -/
  | blank (tokens : List Value) : IsHanded text discard tokens
  /-- One number of the text, as it is written. -/
  | numeral (d : Numeral) : d.val <:+: text → IsHanded text toNumber (tokenOf d.val)
  /-- A number, and behind it operators and numbers in turn. -/
  | operands {l : Level} {v : Value} {steps : List (Operator l × Value)} : v.IsNumber →
      (∀ step ∈ steps, step.2.IsNumber) → IsHanded text fold (v :: stepTokens steps)

/-- What is true of every piece of the calculator: a rule gives its action such tokens wherever it
succeeds, and there is one slot only. -/
def IsSafe (slots : Slots) (text : List Char) (slot : SlotId) : Node → Prop
  | .map _ child action => ∀ (k : Nat) (tokens : List Value) (q : Integral),
      Derives slots text (.node child (.num k)) (.ok (.success tokens q)) →
        IsHanded text action tokens
  | .splice _ _ x => x = slot
  | _ => True

theorem isSafe_discard (i : NodeId) (child : Node) :
    IsSafe slots text slot (.map i child discard) :=
  fun _ tokens _ _ => .blank tokens

theorem spaces_isSafe {n : Node} (h : IsSpaces n) : ∀ x ∈ n.pieces, IsSafe slots text slot x := by
  obtain ⟨i, j, k⟩ := h
  simp only [Node.pieces, List.forall_mem_cons]
  exact ⟨trivial, isSafe_discard _ _, trivial, List.forall_mem_nil _⟩

theorem lexeme_isSafe {n : Node} {p : Pattern} (h : IsLexeme p n) :
    ∀ x ∈ n.pieces, IsSafe slots text slot x := by
  obtain ⟨i, j, hb⟩ := h
  simp only [Node.pieces, List.forall_mem_cons, List.forall_mem_append]
  exact ⟨trivial, spaces_isSafe hb, trivial, List.forall_mem_nil _⟩

theorem symbol_isSafe {n : Node} {p : Pattern} (h : IsSymbol p n) :
    ∀ x ∈ n.pieces, IsSafe slots text slot x := by
  obtain ⟨i, hn⟩ := h
  simp only [Node.pieces, List.forall_mem_cons]
  exact ⟨isSafe_discard _ _, lexeme_isSafe hn⟩

/-- What a number is read from is a number as it is written. -/
theorem isSafe_toNumber {digits : Node} (h : IsLexeme numeralPattern digits) (i : NodeId) :
    IsSafe slots text slot (.map i digits toNumber) := by
  intro k tokens q hd
  obtain ⟨b, w, -, hw, hread, rfl, -⟩ := ((h.scans numeral_isToken).answers k).of_derives hd
  have hin : b ++ w <:+: text := hread.isInfix.trans (List.drop_suffix k text).isInfix
  exact .numeral ⟨w, hw⟩ ((List.suffix_append b w).isInfix.trans hin)

/-- What is folded are the values of trees, with the operators between them. -/
theorem isSafe_fold (L : Layout slots slot node) {l : Level} {op : Node}
    (hop : IsLexeme l.pattern op) (i j r m : NodeId) :
    IsSafe slots text slot (.map i
      (.seq j (node l.operand) (.rep r (.seq m op (node l.operand)) (.num 0) none)) fold) := by
  intro k tokens q hd
  have htrees (k : Nat) : Answers slots text (node l.operand) (.num k) (IsSound text l.operand k) :=
    L.answers _ k (Nat.le_refl _) _
  obtain ⟨first, others, v, vs, hv, hvs, rfl, -⟩ :=
    (answers_operands hop j r m k (htrees k) fun k' _ _ => htrees k').of_derives hd
  have hfirst := first.value_computes
  have hothers := others.values_compute
  rw [hv] at hfirst
  rw [hvs] at hothers
  exact .operands hfirst hothers

/-- The pieces of the rule for any phrase. -/
theorem Layout.isSafe (L : Layout slots slot node) (p : Phrase) :
    ∀ x ∈ (node p).pieces, IsSafe slots text slot x := by
  have hfactor : ∀ x ∈ (node .factor).pieces, IsSafe slots text slot x := by
    have h := L.factor
    generalize node .factor = n at h
    obtain ⟨i, j, l, m, hopen, hclose, hdigits⟩ := h
    simp only [Node.pieces, List.forall_mem_cons, List.forall_mem_append]
    exact ⟨trivial, ⟨trivial, ⟨rfl, symbol_isSafe hopen⟩, symbol_isSafe hclose⟩,
      isSafe_toNumber hdigits m, lexeme_isSafe hdigits⟩
  have hchain {l : Level} (hoperand : ∀ x ∈ (node l.operand).pieces, IsSafe slots text slot x) :
      ∀ x ∈ (node (.chain l)).pieces, IsSafe slots text slot x := by
    have h := L.chain l
    generalize node (.chain l) = n at h
    obtain ⟨i, j, r, m, hop⟩ := h
    simp only [Node.pieces, List.forall_mem_cons, List.forall_mem_append]
    exact ⟨isSafe_fold L hop i j r m, trivial, hoperand, trivial, trivial, lexeme_isSafe hop,
      hoperand⟩
  have hproduct := hchain (l := .product) hfactor
  cases p with
  | factor => exact hfactor
  | chain l =>
    cases l with
    | product => exact hproduct
    | sum => exact hchain (l := .sum) hproduct

/-- **Whatever the run comes to, an action is given tokens that it is made for.** -/
theorem IsCalculator.isHanded {n : Node} (h : IsCalculator slots n) {action : Action}
    {tokens : List Value} (hands : Machine.Hands slots text n (.num 0) action tokens) :
    IsHanded text action tokens := by
  obtain ⟨id, child, p, q, hreaches, hahead, hd⟩ := hands.exists_derives
  obtain ⟨i, L, hspaces⟩ := h
  rename_i slot node tail
  have hsafe : IsSafe slots text slot (.map id child action) := by
    refine hreaches.pieces ?_ ?_ _ (Node.self_mem_pieces _)
    · rintro id base _ target rfl htarget
      rw [L.filled] at htarget
      cases htarget
      exact L.isSafe (.chain .sum)
    · simp only [Node.pieces, List.forall_mem_cons, List.forall_mem_append]
      exact ⟨trivial, L.isSafe (.chain .sum), spaces_isSafe hspaces⟩
  -- the offset may be given as a truth value; the rule does at it what it does at its number
  obtain ⟨k, hk⟩ := Int.eq_ofNat_of_zero_le hahead.le
  have hnumber : p.number = .num k := congrArg Integral.num hk
  exact hsafe k tokens q.number (hnumber ▸ hd.numbered)

/-! ### The whole text -/

/-- The calculator ends with one number if it ends behind all of the text; a fault is one of
arithmetic. -/
theorem IsCalculator.answers_number {n : Node} (h : IsCalculator slots n) (text : List Char) :
    Answers slots text n (.num 0)
      (Finish.Meets (fun tokens q => q.toInt = text.length → ∃ v, tokens = [v] ∧ v.IsNumber) True
        (IsArithmetic text)) := by
  obtain ⟨f | ⟨tokens, q⟩ | ⟨q, c⟩, hd, hmeets⟩ := h.answers text
  · obtain ⟨p, t, ht, hin⟩ := hmeets
    have hfault := t.value_computes
    rw [ht] at hfault
    exact ⟨_, hd, IsArithmetic.mono hfault hin⟩
  · refine ⟨_, hd, fun hq => ?_⟩
    obtain ⟨sentence⟩ := hmeets hq
    have hending := Machine.derives_unique (h.derives sentence) hd
    have hnumber := sentence.tree.value_computes
    cases hv : sentence.tree.value with
    | error f =>
      rw [hv] at hending
      cases hending
    | ok v =>
      rw [hv] at hending hnumber
      cases hending
      exact ⟨v, rfl, hnumber⟩
  · exact ⟨_, hd, trivial⟩

/-- The calculator gives one number. -/
theorem IsCalculator.parse_value {s : Session} {r : Rule} {fuel : Nat} {tokens : List Value}
    (h : IsCalculator s.slots r.node) (hparse : (s.parse fuel r text).1 = .value tokens) :
    ∃ v, tokens = [v] ∧ v.IsNumber := by
  obtain ⟨q, hd, hq⟩ := Session.parse_value hparse
  exact (h.answers_number text).of_derives hd hq

/-- How the calculator may end on a text. -/
inductive IsExpected (text : List Char) : Except Fault Value → Prop where
  | number {v : Value} : v.IsNumber → IsExpected text (.ok v)
  | parse (failure : ParseFailure) : IsExpected text (.error (.parse failure))
  | arithmetic {f : Fault} : IsArithmetic text f → IsExpected text (.error f)

theorem IsExpected.kindName_mem {f : Fault} (h : IsExpected text (.error f)) :
    f.kindName ∈ ["ParseFailure", "ZeroDivisionError", "OverflowError", "ValueError"] := by
  cases h with
  | parse failure => simp [Fault.kindName]
  | arithmetic h => cases h <;> simp [Fault.kindName, Numeral.refusal]

/-- The calculator ends on every text, and as it may. -/
theorem calculate_ends {s : Session} (hs : s.journal.trace = false) (text : List Char) :
    ∃ x, EndsWith (fun fuel => calculate fuel s text) x ∧ IsExpected text x := by
  obtain ⟨slots, n, hn, hends⟩ := calculate_endsWith hs text
  obtain ⟨e, hd, hmeets⟩ := hn.answers_number text
  have hend := hends e hd
  cases e with
  | error f => exact ⟨_, hend, .arithmetic hmeets⟩
  | ok result =>
    rcases Session.conclusion_cases text result with ⟨tokens, q, rfl, hq⟩ | ⟨failure, hfailure⟩
    · obtain ⟨v, rfl, hv⟩ := hmeets hq
      simp only [bind, Except.bind, Session.conclusion_success hq, firstOf] at hend
      exact ⟨_, hend, .number hv⟩
    · simp only [bind, Except.bind, hfailure] at hend
      exact ⟨_, hend, .parse failure⟩

/-- **The calculator raises nothing but parse failures and faults of arithmetic.** With tracing off
it ends on every text, with a number, a parse failure or a fault of arithmetic. In its run every
action is given tokens that it is made for, also where the text is not a sentence and on what is
given up later; and a parse that succeeds has given one number. -/
theorem calculate_safe (s : Session) (hs : s.journal.trace = false) (text : List Char) :
    (∃ x, EndsWith (fun fuel => calculate fuel s text) x ∧ IsExpected text x) ∧
      (∀ fuel f, calculate fuel s text = .raised f →
        f.kindName ∈ ["ParseFailure", "ZeroDivisionError", "OverflowError", "ValueError"]) ∧
      ∃ r s', calculator s = (.ok r, s') ∧
        (∀ action tokens, Machine.Hands s'.slots text r.node (.num 0) action tokens →
          IsHanded text action tokens) ∧
        ∀ fuel tokens, (s'.parse fuel r text).1 = .value tokens → ∃ v, tokens = [v] ∧ v.IsNumber := by
  obtain ⟨x, hend, hexpected⟩ := calculate_ends hs text
  obtain ⟨r, s', hbuild, -, hr⟩ := calculator_builds s
  refine ⟨⟨x, hend, hexpected⟩, ?_, r, s', hbuild, ?_, ?_⟩
  · intro fuel f hraised
    have hx : Except.error f = x := hend.eq_of_run hraised
    subst hx
    exact hexpected.kindName_mem
  · exact fun action tokens hands => hr.isHanded hands
  · exact fun fuel tokens hparse => hr.parse_value hparse

/-- The text `1/0+` is not a sentence, and the division is made before this is found. -/
theorem calculate_safe_unfinished :
    (Session.new (Journal.new false "WARNING")).journal.trace = false ∧
      calculate 100 (Session.new (Journal.new false "WARNING")) ['1', '/', '0', '+'] =
        .raised .divisionByZero ∧
      IsExpected ['1', '/', '0', '+'] (.error .divisionByZero) ∧
      ∃ r s', calculator (Session.new (Journal.new false "WARNING")) = (.ok r, s') ∧
        ∀ action tokens,
          Machine.Hands s'.slots ['1', '/', '0', '+'] r.node (.num 0) action tokens →
            IsHanded ['1', '/', '0', '+'] action tokens := by
  obtain ⟨⟨x, hend, hexpected⟩, -, r, s', hbuild, hhanded, -⟩ :=
    calculate_safe (Session.new (Journal.new false "WARNING")) rfl ['1', '/', '0', '+']
  have hrun : calculate 100 (Session.new (Journal.new false "WARNING")) ['1', '/', '0', '+'] =
      .raised .divisionByZero := rfl
  have hx : Except.error Fault.divisionByZero = x := hend.eq_of_run hrun
  exact ⟨rfl, hrun, hx ▸ hexpected, r, s', hbuild, hhanded⟩

-- the tables of digits and of printable characters are looked through to their ends
set_option maxRecDepth 20000 in
/-- The zero of a later script is a digit to the pattern for numbers, but it has no value: the number
is refused, and not because its digits are too many. -/
theorem calculate_refuses_laterZero :
    ∃ f, calculate 40 (Session.new (Journal.new false "WARNING")) [Char.ofNat 0x11F50] =
        .raised f ∧
      f.kindName = "ValueError" ∧ ∀ digits, f ≠ .value (.tooManyDigitsToRead digits) :=
  ⟨.value (.intLiteral "'\\U00011f50'"), rfl, rfl, nofun⟩

end Arithmetic

end LeafGrammar
