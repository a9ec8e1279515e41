import LeafGrammar.Proofs.Grammar.Arithmetic

/-!
# The calculator is right

The rules of the calculator are known by their shape (`Layout`), with the rule for a whole
expression in the slot behind the opening parenthesis.

A tree makes the rule of its phrase end with the tree's value, provided that the text goes
on as it may after the phrase (`Tree.derives`). Every token is then decided by its first
character: no alternative is tried in vain after it has evaluated anything, and no
repetition ends too early.

The other way round the rule of a phrase ends on every text, and where it succeeds it has
read a tree (`Layout.answers`). The recursion goes through the opening parenthesis, which
takes a character, so what is left of the text is its measure.
-/

namespace LeafGrammar.Arithmetic

open Grammar

/-! ### Tokens -/

/-- The pattern for a number. -/
def numeralPattern : Pattern :=
  .ofRegex "\\d+(?:\\.\\d+)?"
    (Pattern.fractionRegex (.item ⟨.named .digit false, false⟩) (.ofChar '.') .exact .exact)

/-- The pattern for the operators of a level. -/
def Level.pattern : Level → Pattern
  | .product => .ofRegex "[*/]" (.one (.anyOf [.char '*', .char '/'] false) .exact)
  | .sum => .ofRegex "[+-]" (.one (.anyOf [.char '+', .char '-'] false) .exact)

theorem IsNumeral.exists_digit {w : List Char} (h : IsNumeral w) :
    ∃ c v, w = c :: v ∧ Pattern.isDigit c = true := by
  have hrun {a : List Char} (ha : Pattern.IsRun Pattern.isDigit a) :
      ∃ c v, a = c :: v ∧ Pattern.isDigit c = true := by
    obtain ⟨c, v, rfl⟩ := List.exists_cons_of_ne_nil ha.1
    exact ⟨c, v, rfl, ha.2 c List.mem_cons_self⟩
  rcases h with h | ⟨a, x, b, rfl, ha, -⟩
  · exact hrun h
  · obtain ⟨c, v, rfl, hc⟩ := hrun ha
    exact ⟨c, v ++ x :: b, rfl, hc⟩

theorem numeral_isToken :
    IsToken numeralPattern IsNumeral fun c => Pattern.isDigit c || c == '.' := by
  have hpoint : (Pattern.CharSet.ofChar '.').contains .exact = (· == '.') := by
    funext c
    exact Pattern.contains_ofChar c '.'
  have hapart : ∀ c, (Pattern.CharSet.ofChar '.').contains .exact c = true →
      (Pattern.CharSet.item ⟨.named .digit false, false⟩).contains .exact c = false := by
    intro c hc
    rw [hpoint, beq_iff_eq] at hc
    subst hc
    rw [Pattern.contains_digit]
    decide
  have hreads : numeralPattern.Reads _ _ := Pattern.reads_fraction hapart
  rw [Pattern.contains_digit, hpoint] at hreads
  refine ⟨hreads, fun {w} hw => ?_⟩
  obtain ⟨c, v, rfl, hc⟩ := hw.exists_digit
  refine ⟨by simp, Pattern.stops_cons.mpr ?_⟩
  cases hb : Text.isBlank c with
  | false => rfl
  | true => simp [Pattern.isDigit_of_isBlank hb] at hc

theorem operator_isToken (l : Level) :
    IsToken l.pattern (fun w => ∃ o : Operator l, w = [o.sign]) fun _ => false := by
  have hreads : l.pattern.Reads (Pattern.IsSingle (· ∈ l.signs)) fun _ => false := by
    have hset (c d : Char) : (Pattern.CharSet.anyOf [.char c, .char d] false).contains .exact =
        (decide <| · ∈ [c, d]) := by
      funext x
      rw [Bool.eq_iff_iff]
      simp [Pattern.contains_anyOf, Pattern.Item.contains]
    cases l with
    | product => exact (hset '*' '/') ▸ Pattern.reads_one _ _
    | sum => exact (hset '+' '-') ▸ Pattern.reads_one _ _
  refine ⟨hreads.congr fun w => ?_, ?_⟩
  · constructor
    · rintro ⟨c, hc, rfl⟩
      obtain ⟨o, rfl⟩ := Level.exists_operator (of_decide_eq_true hc)
      exact ⟨o, rfl⟩
    · rintro ⟨o, rfl⟩
      exact ⟨o.sign, decide_eq_true o.sign_mem, rfl⟩
  · rintro w ⟨o, rfl⟩
    refine ⟨by simp, Pattern.stops_cons.mpr ?_⟩
    cases o <;> decide

/-! ### Actions -/

/-- Operators and operands in turn, as tokens. -/
def stepTokens {l : Level} (steps : List (Operator l × Value)) : List Value :=
  steps.flatMap fun (operator, v) => [.text (String.ofList [operator.sign]), v]

theorem toNumber_newTokens (d : Numeral) :
    toNumber.newTokens (tokenOf d.val) = d.value.map ([·]) := by
  have happly : toNumber.newTokens (tokenOf d.val) =
      (numberOf (.text (String.ofList d.val))).map ([·]) := by
    show ((numberOf (.text (String.ofList d.val)) >>= fun v => .ok (.list [v])) >>= Value.items) = _
    cases numberOf (.text (String.ofList d.val)) <;> rfl
  rw [happly]
  congr 1
  unfold numberOf Numeral.value
  by_cases hpoint : '.' ∈ d.val
  · simp [hpoint]
  · simp [hpoint]

theorem operationOf_sign {l : Level} (o : Operator l) :
    operationOf (.text (String.ofList [o.sign])) = .ok o.apply := by
  cases o <;> rfl

theorem foldFrom_stepTokens {l : Level} (v : Value) (steps : List (Operator l × Value)) :
    foldFrom v (stepTokens steps) = applyAll v steps := by
  induction steps generalizing v with
  | nil => rfl
  | cons step steps ih =>
    obtain ⟨o, w⟩ := step
    show (operationOf (.text (String.ofList [o.sign])) >>= fun operation =>
      operation v w >>= fun acc => foldFrom acc (stepTokens steps)) = _
    rw [operationOf_sign]
    show (o.apply v w >>= fun acc => foldFrom acc (stepTokens steps)) =
      (o.apply v w >>= fun acc => applyAll acc steps)
    simp only [ih]

theorem fold_newTokens {l : Level} (v : Value) (steps : List (Operator l × Value)) :
    fold.newTokens (v :: stepTokens steps) = (applyAll v steps).map ([·]) := by
  rw [← foldFrom_stepTokens]
  show ((foldFrom v (stepTokens steps) >>= fun w => .ok (.list [w])) >>= Value.items) = _
  cases foldFrom v (stepTokens steps) <;> rfl

/-! ### Rules -/

/-- The shape of the rule for factors, with the rule for expressions in the slot. -/
inductive IsFactor (slot : SlotId) : Node → Prop where
  | mk (i j l m : NodeId) {opened closed digits : Node} :
      IsSymbol (punctuation "\\(" '(') opened → IsSymbol (punctuation "\\)" ')') closed →
        IsLexeme numeralPattern digits →
          IsFactor slot (.choice i (.seq j (.splice l opened slot) closed) (.map m digits toNumber))

/-- The shape of the rule for operands joined by operators. -/
inductive IsChain (operand : Node) (p : Pattern) : Node → Prop where
  | mk (i j l m : NodeId) {op : Node} : IsLexeme p op →
      IsChain operand p (.map i (.seq j operand (.rep l (.seq m op operand) (.num 0) none)) fold)

/-- The rules for all phrases. -/
structure Layout (slots : Slots) (slot : SlotId) (node : Phrase → Node) : Prop where
  factor : IsFactor slot (node .factor)
  chain : ∀ l : Level, IsChain (node l.operand) l.pattern (node (.chain l))
  filled : slots.target? slot = some (node (.chain .sum))

variable {slots : Slots} {slot : SlotId} {node : Phrase → Node} {text : List Char}

/-! ### Every tree is found -/

/-- The ending of a phrase with this value that is read up to `q`. -/
def ending (v : Except Fault Value) (q : Nat) : Finish := v.map fun v => .success [v] (.num q)

/-- A number is read, after the rule for a group has failed. -/
theorem IsFactor.derives_number {n : Node} (h : IsFactor slot n) (before : Blanks)
    (digits : Numeral) {k : Nat} {u : List Char}
    (htext : text.drop k = before.val ++ (digits.val ++ u)) (hu : Followed .factor u) :
    Derives slots text (.node n (.num k))
      (ending digits.value (k + (before.val ++ digits.val).length)) := by
  obtain ⟨i, j, l, m, hopen, hclose, hdigits⟩ := h
  obtain ⟨c, v, hcv, hc⟩ := digits.2.exists_digit
  have hstart : Pattern.Stops Text.isBlank (digits.val ++ u) := by
    rw [hcv]
    exact Pattern.stops_cons.mpr (Pattern.stops_cons.mp (hcv ▸ (numeral_isToken.starts digits.2).2))
  have hother : ∀ w : List Char, w = ['('] → ¬ w <+: digits.val ++ u := by
    rintro w rfl ⟨rest, hrest⟩
    rw [hcv] at hrest
    cases hrest
    exact absurd hc (by decide)
  obtain ⟨q, complaint, hno⟩ :=
    (hopen.scans openingParenthesis_isToken).fails htext before.2 hstart hother
  refine .choiceRight (.seqStop (.spliceStop hno trivial) trivial) ?_
  have hread : Derives slots text _ _ :=
    (hdigits.scans numeral_isToken).reads htext before.2 digits.2 (stops_numeral hu)
  have hmap : Derives slots text (.node (.map m _ toNumber) (.num k)) _ := .map hread
  rw [toNumber_newTokens] at hmap
  cases hv : digits.value <;> rw [hv] at hmap <;> exact hmap

/-- A group is read if its inside is, and a fault inside is a fault of the group. -/
theorem IsFactor.derives_group {n inside : Node} (h : IsFactor slot n)
    (hslot : slots.target? slot = some inside) (before after : Blanks) {k : Nat} {w u : List Char}
    {v : Except Fault Value}
    (htext : text.drop k = before.val ++ '(' :: (w ++ (after.val ++ [')'])) ++ u)
    (hinside : Derives slots text (.node inside (.num (k + (before.val ++ ['(']).length : Nat)))
      (ending v (k + (before.val ++ ['(']).length + w.length))) :
    Derives slots text (.node n (.num k))
      (ending v (k + (before.val ++ '(' :: (w ++ (after.val ++ [')']))).length)) := by
  obtain ⟨i, j, l, m, hopen, hclose, hdigits⟩ := h
  have hopened : Derives slots text _ _ := (hopen.scans openingParenthesis_isToken).reads
    (u := w ++ (after.val ++ [')']) ++ u) (by rw [htext]; simp) before.2 rfl fun _ _ => rfl
  cases v with
  | error f => exact .choiceLeft (.seqStop (.splice hopened hslot hinside) trivial) id
  | ok v =>
    have hrest : text.drop (k + (before.val ++ ['(']).length + w.length) =
        after.val ++ ([')'] ++ u) := by
      refine drop_add_length (drop_add_length ?_)
      rw [htext]
      simp
    have hclosed : Derives slots text _ _ :=
      (hclose.scans closingParenthesis_isToken).reads hrest after.2 rfl fun _ _ => rfl
    have hgroup : Derives slots text (.node (.seq j (.splice l _ slot) _) (.num k)) _ :=
      .seq (.splice hopened hslot hinside) hclosed
    have hend : k + (before.val ++ ['(']).length + w.length + (after.val ++ [')']).length =
        k + (before.val ++ '(' :: (w ++ (after.val ++ [')']))).length := by
      simp
      omega
    rw [hend] at hgroup
    exact .choiceLeft hgroup id

/-- The operators and operands behind the first operand: the ending of the repetition that
has read `tokens` up to here. -/
def roundsEnding {l : Level} (tokens : List Value) (vs : Except Fault (List (Operator l × Value)))
    (q : Nat) : Finish :=
  vs.map fun vs => .success (tokens ++ stepTokens vs) (.num q)

/-- A round that has read an operator and an operand leaves the others to be read. -/
theorem roundsEnding_cons {l : Level} (before : Blanks) (operator : Operator l)
    {operand : Tree l.operand} {rest : Others l} {v : Value} (hv : operand.value = .ok v)
    (tokens : List Value) (q : Nat) :
    roundsEnding tokens (Others.cons before operator operand rest).values q =
      roundsEnding (tokens ++ (tokenOf [operator.sign] ++ [v])) rest.values q := by
  rw [Others.values, hv]
  cases rest.values with
  | error f => rfl
  | ok vs =>
    show (.ok (.success (tokens ++ stepTokens ((operator, v) :: vs)) (.num q)) : Finish) =
      .ok (.success (tokens ++ (tokenOf [operator.sign] ++ [v]) ++ stepTokens vs) (.num q))
    simp [stepTokens, tokenOf]

/-- Where a chain may end no further round is made. -/
theorem rounds_over {l : Level} {op operand : Node} (hop : IsLexeme l.pattern op) (m : NodeId)
    {k count : Nat} {u : List Char} {tokens : List Value} (htext : text.drop k = u)
    (hu : Followed (.chain l) u) :
    Derives slots text (.rounds (.seq m op operand) (.num 0) none tokens (.num k) count)
      (.ok (.success tokens (.num k))) := by
  obtain ⟨q, complaint, hno⟩ := (hop.scans (operator_isToken l)).fails_of_followedBy (htext ▸ hu)
    (fun c hc => (followers_plain _ c hc).1) (by
      rintro w ⟨o, rfl⟩
      exact ⟨o.sign, [], rfl, o.sign_not_mem_followers⟩)
  exact .roundsOver rfl (.seqStop hno trivial)

/-- A chain is read if its first operand is, and then the others. -/
theorem IsChain.derives {n operand : Node} {l : Level} (h : IsChain operand l.pattern n)
    {first : Tree l.operand} {others : Others l} {k : Nat}
    (hfirst : Derives slots text (.node operand (.num k))
      (ending first.value (k + first.text.length)))
    (hothers : ∀ {op : Node} (m : NodeId), IsLexeme l.pattern op →
      Derives slots text (.rounds (.seq m op operand) (.num 0) none []
        (.num (k + first.text.length : Nat)) 0)
        (roundsEnding [] others.values (k + first.text.length + others.text.length))) :
    Derives slots text (.node n (.num k))
      (ending (Tree.chain first others).value (k + (Tree.chain first others).text.length)) := by
  obtain ⟨i, j, r, m, hop⟩ := h
  have hrounds := hothers m hop
  cases hv : first.value with
  | error f =>
    rw [hv] at hfirst
    have hvalue : (Tree.chain first others).value = .error f := by
      rw [Tree.value, hv]
      rfl
    rw [hvalue]
    exact .mapStop (.seqStop hfirst trivial) trivial
  | ok v =>
    rw [hv] at hfirst
    cases hvs : others.values with
    | error f =>
      rw [hvs] at hrounds
      have hvalue : (Tree.chain first others).value = .error f := by
        rw [Tree.value, hv, hvs]
        rfl
      rw [hvalue]
      exact .mapStop (.seq hfirst (.rep hrounds)) trivial
    | ok vs =>
      rw [hvs] at hrounds
      have hmap : Derives slots text
          (.node (.map i (.seq j operand (.rep r _ (.num 0) none)) fold) (.num k)) _ :=
        .map (.seq hfirst (.rep hrounds))
      have htokens : [v] ++ ([] ++ stepTokens vs) = v :: stepTokens vs := rfl
      rw [htokens, fold_newTokens, ← Tree.value_chain hv hvs] at hmap
      have hend : k + first.text.length + others.text.length =
          k + (Tree.chain first others).text.length := by
        rw [Tree.text, List.length_append, Nat.add_assoc]
      rw [hend] at hmap
      cases hvalue : (Tree.chain first others).value <;> rw [hvalue] at hmap <;> exact hmap

mutual

/-- **A tree is found.** In front of a text that goes on as it may after its phrase, the
rule of the phrase ends with the value of the tree, or with its fault. -/
theorem Tree.derives (L : Layout slots slot node) : ∀ {p : Phrase} (t : Tree p) {k : Nat}
    {u : List Char}, text.drop k = t.text ++ u → Followed p u →
      Derives slots text (.node (node p) (.num k)) (ending t.value (k + t.text.length))
  | _, .number before digits, k, u, htext, hu => by
    rw [Tree.text, List.append_assoc] at htext
    exact L.factor.derives_number before digits htext hu
  | _, .group before inside after, k, u, htext, hu => by
    rw [Tree.text] at htext
    refine L.factor.derives_group L.filled before after htext ?_
    refine inside.derives L (u := after.val ++ ([')'] ++ u)) (drop_add_length ?_) ?_
    · rw [htext]
      simp
    · exact .token after (by decide) u
  | _, .chain (l := l) first others, k, u, htext, hu => by
    rw [Tree.text, List.append_assoc] at htext
    refine (L.chain l).derives (first.derives L htext (others.followed hu)) fun m hop => ?_
    exact others.derives L hop m (drop_add_length htext) hu

/-- The operators and operands of a chain are found, and the repetition ends behind them. -/
theorem Others.derives (L : Layout slots slot node) : ∀ {l : Level} (others : Others l) {op : Node}
    (_ : IsLexeme l.pattern op) (m : NodeId) {k count : Nat} {u : List Char} {tokens : List Value},
      text.drop k = others.text ++ u → Followed (.chain l) u →
        Derives slots text (.rounds (.seq m op (node l.operand)) (.num 0) none tokens (.num k) count)
          (roundsEnding tokens others.values (k + others.text.length))
  | l, .nil, op, hop, m, k, count, u, tokens, htext, hu => by
    have hnil : roundsEnding tokens (Others.nil : Others l).values
        (k + (Others.nil : Others l).text.length) = .ok (.success tokens (.num k)) := by
      simp [roundsEnding, Others.values, Others.text, Except.map, stepTokens]
    rw [hnil]
    exact rounds_over hop m htext hu
  | l, .cons before operator operand rest, op, hop, m, k, count, u, tokens, htext, hu => by
    have htext' : text.drop k =
        before.val ++ ([operator.sign] ++ (operand.text ++ (rest.text ++ u))) := by
      rw [htext, Others.text]
      simp
    have hsign : Derives slots text _ _ :=
      (hop.scans (operator_isToken l)).reads htext' before.2 ⟨operator, rfl⟩ fun _ _ => rfl
    have hdrop : text.drop (k + (before.val ++ [operator.sign]).length) =
        operand.text ++ (rest.text ++ u) := drop_add_length (by rw [htext']; simp)
    have hoperand := operand.derives L hdrop (rest.followed hu)
    cases hv : operand.value with
    | error f =>
      rw [hv] at hoperand
      have hvalues : (Others.cons before operator operand rest).values = .error f := by
        rw [Others.values, hv]
        rfl
      rw [hvalues]
      exact .roundsFault rfl (.seq hsign hoperand)
    | ok v =>
      rw [hv] at hoperand
      have hend : k + (Others.cons before operator operand rest).text.length =
          k + (before.val ++ [operator.sign]).length + operand.text.length + rest.text.length := by
        simp [Others.text]
        omega
      rw [roundsEnding_cons before operator hv, hend]
      refine .roundsNext rfl (.seq hsign hoperand) ?_
        (rest.derives L hop m (drop_add_length hdrop) hu)
      simp only [Integral.toInt_num, List.length_append, List.length_singleton]
      omega

end

/-! ### Nothing else is found -/

/-- What the rule of a phrase may answer at an offset: a success with a tree that starts
there and its value; a failure; or the fault of some tree in the text. -/
def IsSound (text : List Char) (p : Phrase) (k : Nat) : Finish → Prop :=
  Finish.Meets
    (fun tokens q => ∃ (t : Tree p) (v : Value), t.value = .ok v ∧ tokens = [v] ∧
      t.text <+: text.drop k ∧ q = .num (k + t.text.length : Nat))
    True fun f => ∃ (p' : Phrase) (t : Tree p'), t.value = .error f ∧ t.text <:+: text

/-- A tree that starts at the offset, with whatever value it has. -/
theorem isSound_ending {p : Phrase} {k : Nat} (t : Tree p) (h : t.text <+: text.drop k) :
    IsSound text p k (ending t.value (k + t.text.length)) := by
  cases hv : t.value with
  | error f => exact ⟨p, t, hv, h.isInfix.trans (List.drop_suffix k text).isInfix⟩
  | ok v => exact ⟨t, v, hv, rfl, h, rfl⟩

theorem IsFactor.answers_number {m : NodeId} {digits : Node} (h : IsLexeme numeralPattern digits)
    (k : Nat) : Answers slots text (.map m digits toNumber) (.num k) (IsSound text .factor k) := by
  refine Answers.map (((h.scans numeral_isToken).answers k).imp fun e he => ?_)
  rcases e with f | ⟨tokens, q⟩ | ⟨q, c⟩
  · exact he.elim
  · obtain ⟨b, w, hb, hw, hprefix, rfl, rfl⟩ := he
    rw [Finish.meets_success, toNumber_newTokens ⟨w, hw⟩]
    have hsound := isSound_ending (Tree.number ⟨b, hb⟩ ⟨w, hw⟩) hprefix
    rw [Tree.value] at hsound
    cases hv : Numeral.value ⟨w, hw⟩ <;> rw [hv] at hsound <;> exact hsound
  · exact fun _ _ => trivial

/-- The rule for factors answers if the rule for expressions does behind the parenthesis. -/
theorem IsFactor.answers {n inside : Node} (h : IsFactor slot n)
    (hslot : slots.target? slot = some inside) (k : Nat)
    (ih : ∀ k', k < k' → k' ≤ text.length →
      Answers slots text inside (.num k') (IsSound text (.chain .sum) k')) :
    Answers slots text n (.num k) (IsSound text .factor k) := by
  obtain ⟨i, j, l, m, hopen, hclose, hdigits⟩ := h
  have hnumber : Answers slots text (.map m _ toNumber) (.num k) (IsSound text .factor k) :=
    answers_number hdigits k
  refine .choice (.seq (.splice hslot
    (((hopen.scans openingParenthesis_isToken).answers k).imp fun e he => ?_))) hnumber
  rcases e with f | ⟨tokens, q⟩ | ⟨q, c⟩
  · exact he.elim
  · obtain ⟨b, w, hb, rfl, hopened, rfl, rfl⟩ := he
    have hlt : k < k + (b ++ ['(']).length := by simp
    refine (ih _ hlt (add_length_le_length hopened (by simp))).imp fun e he => ?_
    rcases e with f | ⟨tokens, q⟩ | ⟨q, c⟩
    · exact he
    · obtain ⟨t, v, hv, rfl, ht, rfl⟩ := he
      refine ((hclose.scans closingParenthesis_isToken).answers _).imp fun e he => ?_
      rcases e with f | ⟨tokens, q⟩ | ⟨q, c⟩
      · exact he.elim
      · obtain ⟨b', w, hb', rfl, hclosed, rfl, rfl⟩ := he
        have hprefix := prefix_append hopened (prefix_append ht hclosed)
        refine ⟨.group ⟨b, hb⟩ t ⟨b', hb'⟩, v, hv, rfl, ?_, ?_⟩
        · simpa [Tree.text] using hprefix
        · simp [Tree.text]
          omega
      · trivial
    · exact fun _ _ => trivial
  · exact fun _ _ _ _ => trivial

/-- The operands and operators of a chain: a success gives the values of the operands with the
operators between them. -/
theorem answers_operands {operand op : Node} {l : Level} (hop : IsLexeme l.pattern op)
    (j r m : NodeId) (k : Nat)
    (hfirst : Answers slots text operand (.num k) (IsSound text l.operand k))
    (hlater : ∀ k', k < k' → k' ≤ text.length →
      Answers slots text operand (.num k') (IsSound text l.operand k')) :
    Answers slots text (.seq j operand (.rep r (.seq m op operand) (.num 0) none)) (.num k)
      (Finish.Meets
        (fun tokens q => ∃ (first : Tree l.operand) (others : Others l) (v : Value)
          (vs : List (Operator l × Value)), first.value = .ok v ∧ others.values = .ok vs ∧
            tokens = v :: stepTokens vs ∧ first.text ++ others.text <+: text.drop k ∧
              q = .num (k + (first.text ++ others.text).length : Nat))
        True fun f => ∃ (p : Phrase) (t : Tree p), t.value = .error f ∧ t.text <:+: text) := by
  refine .seq (hfirst.imp fun e he => ?_)
  rcases e with f | ⟨tokens, q⟩ | ⟨q, c⟩
  · exact he
  · obtain ⟨first, v, hv, rfl, hprefix, rfl⟩ := he
    -- what has been read so far is the first operand and some others
    let I : List Value → Nat → Prop := fun tokens k' => ∃ (others : Others l) (vs : _),
      others.values = .ok vs ∧ tokens = stepTokens vs ∧
        first.text ++ others.text <+: text.drop k ∧ k' = k + (first.text ++ others.text).length
    have hstart : I [] (k + first.text.length) :=
      ⟨.nil, [], rfl, rfl, by simpa [Others.text] using hprefix, by simp [Others.text]⟩
    refine .star hstart fun tokens k' hI => .seq ?_
    obtain ⟨others, vs, hvs, rfl, hread, rfl⟩ := hI
    refine ((hop.scans (operator_isToken l)).answers _).imp fun e he => ?_
    rcases e with f | ⟨tokens, q⟩ | ⟨q, c⟩
    · exact he.elim
    · obtain ⟨b, w, hb, ⟨o, rfl⟩, hsign, rfl, rfl⟩ := he
      have hlt : k < k + (first.text ++ others.text).length + (b ++ [o.sign]).length := by
        simp only [List.length_append, List.length_singleton]
        omega
      refine (hlater _ hlt (add_length_le_length hsign (by simp))).imp fun e he => ?_
      rcases e with f | ⟨tokens, q⟩ | ⟨q, c⟩
      · exact he
      · obtain ⟨t, w, hw, rfl, ht, rfl⟩ := he
        have hmore := prefix_append hread (prefix_append hsign ht)
        have htext : first.text ++ (others.snoc ⟨b, hb⟩ o t).text =
            first.text ++ others.text ++ (b ++ [o.sign] ++ t.text) := by
          simp [Others.text_snoc]
        refine ⟨_, rfl, ?_, ?_, others.snoc ⟨b, hb⟩ o t, vs ++ [(o, w)], ?_, ?_, ?_, ?_⟩
        · simp only [List.length_append, List.length_singleton]
          omega
        · have := add_length_le_length hmore (by simp)
          simp only [List.length_append] at this ⊢
          omega
        · exact Others.values_snoc ⟨b, hb⟩ o hw hvs
        · simp [stepTokens, tokenOf]
        · rw [htext]
          exact hmore
        · rw [htext]
          simp only [List.length_append]
          omega
      · exact ⟨first, others, v, vs, hv, hvs, rfl, hread, rfl⟩
    · exact fun _ _ => ⟨first, others, v, vs, hv, hvs, rfl, hread, rfl⟩
  · exact fun _ _ => trivial

/-- The rule for a chain answers if the rule for its operands does. -/
theorem IsChain.answers {n operand : Node} {l : Level} (h : IsChain operand l.pattern n) (k : Nat)
    (hfirst : Answers slots text operand (.num k) (IsSound text l.operand k))
    (hlater : ∀ k', k < k' → k' ≤ text.length →
      Answers slots text operand (.num k') (IsSound text l.operand k')) :
    Answers slots text n (.num k) (IsSound text (.chain l) k) := by
  obtain ⟨i, j, r, m, hop⟩ := h
  refine .map ((answers_operands hop j r m k hfirst hlater).imp fun e he => he.imp ?_ ?_ ?_)
  · rintro tokens q ⟨first, others, v, vs, hv, hvs, rfl, hread, rfl⟩
    have htext : (Tree.chain first others).text = first.text ++ others.text := by rw [Tree.text]
    have hsound := isSound_ending (Tree.chain first others) (htext ▸ hread)
    rw [fold_newTokens, ← Tree.value_chain hv hvs]
    rw [htext] at hsound
    cases hvalue : (Tree.chain first others).value <;> rw [hvalue] at hsound <;> exact hsound
  · exact fun _ _ _ => trivial
  · exact fun f hf => hf

/-- **Every rule ends, and reads trees only.** By what is left of the text: the rules for
chains are made of those for their operands, and the rule for factors comes back to
expressions behind a parenthesis. -/
theorem Layout.answers (L : Layout slots slot node) : ∀ (left k : Nat), text.length - k ≤ left →
    ∀ p : Phrase, Answers slots text (node p) (.num k) (IsSound text p k) := by
  intro left
  induction left using Nat.strongRecOn with
  | ind left ih =>
    intro k hk
    have later (k' : Nat) (hlt : k < k') (hle : k' ≤ text.length) (p : Phrase) :
        Answers slots text (node p) (.num k') (IsSound text p k') :=
      ih (text.length - k') (by omega) k' (Nat.le_refl _) p
    have hfactor := L.factor.answers L.filled k fun k' hlt hle => later k' hlt hle _
    have hproduct := (L.chain .product).answers k hfactor fun k' hlt hle => later k' hlt hle _
    have hsum := (L.chain .sum).answers k hproduct fun k' hlt hle => later k' hlt hle _
    intro p
    match p with
    | .factor => exact hfactor
    | .chain .product => exact hproduct
    | .chain .sum => exact hsum

/-! ### The whole text -/

/-- The shape of the calculator: an expression and then white space. -/
inductive IsCalculator (slots : Slots) : Node → Prop where
  | mk (i : NodeId) {slot : SlotId} {node : Phrase → Node} {tail : Node} :
      Layout slots slot node → IsSpaces tail →
        IsCalculator slots (.seq i (node (.chain .sum)) tail)

/-- A derivation tree of a whole text: an expression, and white space after it. -/
structure Sentence (text : List Char) where
  tree : Tree (.chain .sum)
  tail : Blanks
  text_eq : tree.text ++ tail.val = text

/-- On a sentence the calculator ends with the value of the tree, behind all of the text. -/
theorem IsCalculator.derives {n : Node} (h : IsCalculator slots n) (sentence : Sentence text) :
    Derives slots text (.node n (.num 0)) (ending sentence.tree.value text.length) := by
  obtain ⟨i, L, hspaces⟩ := h
  obtain ⟨tree, tail, htext⟩ := sentence
  have hdrop : text.drop 0 = tree.text ++ tail.val := htext.symm
  have htree := tree.derives L hdrop (.blanks tail)
  cases hv : tree.value with
  | error f =>
    rw [hv] at htree
    exact .seqStop htree trivial
  | ok v =>
    rw [hv] at htree
    have hall := hspaces.derives_seq i hdrop tail.2 htree
    rw [htext, Nat.zero_add] at hall
    exact hall

/-- On any text it ends, and if it ends behind all of the text this is a sentence; a fault is
that of some tree in the text. -/
theorem IsCalculator.answers {n : Node} (h : IsCalculator slots n) (text : List Char) :
    Answers slots text n (.num 0)
      (Finish.Meets (fun _ q => q.toInt = text.length → Nonempty (Sentence text)) True
        fun f => ∃ (p : Phrase) (t : Tree p), t.value = .error f ∧ t.text <:+: text) := by
  obtain ⟨i, L, hspaces⟩ := h
  have htrees := L.answers text.length 0 (Nat.le_refl _) (.chain .sum)
  refine (hspaces.answers_seq i (fun tree : Tree (.chain .sum) => tree.text)
    (htrees.imp fun e he => he.imp ?_ id fun _ => id)).imp
      fun e he => he.imp ?_ id fun _ => id
  · rintro tokens q ⟨tree, v, -, -, hprefix, hq⟩
    exact ⟨tree, hprefix, hq⟩
  · intro tokens q hall hq
    obtain ⟨tree, tail, htext⟩ := hall hq
    exact ⟨tree, tail, htext⟩

/-! ### Building the calculator -/

theorem chainOf_makes {s : Session} (operand : Rule) {source : String} {p : Pattern}
    (h : Pattern.read source .none = .ok p) :
    Build.Makes (calculator.chainOf operand source) s fun r _ =>
      IsChain operand.node p r.node ∧ r.chain = operand.chain := by
  refine (lexeme_makes h).bind fun op s₁ _ hop => ?_
  refine (Build.andThen_makes op operand).bind fun pair s₂ _ hpair => ?_
  refine (Build.star_makes pair).bind fun pairs s₃ _ hpairs => ?_
  refine (Build.andThen_makes operand pairs).bind fun all s₄ _ hall => ?_
  refine (Build.map_makes all fold).mono fun r s₅ _ hr => ?_
  obtain ⟨⟨m, hm⟩, -⟩ := hpair
  obtain ⟨⟨l, hl⟩, -⟩ := hpairs
  obtain ⟨⟨j, hj⟩, hchain⟩ := hall
  obtain ⟨⟨i, hi⟩, hchain'⟩ := hr
  refine ⟨?_, hchain'.trans hchain⟩
  rw [hi, hj, hl, hm]
  exact .mk i j l m hop.1

theorem read_opening : Pattern.read "\\(" .none = .ok (punctuation "\\(" '(') := rfl

theorem read_closing : Pattern.read "\\)" .none = .ok (punctuation "\\)" ')') := rfl

theorem read_numeral : Pattern.read "\\d+(?:\\.\\d+)?" .none = .ok numeralPattern := rfl

theorem read_product : Pattern.read "[*/]" .none = .ok Level.product.pattern := rfl

theorem read_sum : Pattern.read "[+-]" .none = .ok Level.sum.pattern := rfl

/-- The rule for each phrase. -/
def nodeOf (factor product sum : Node) : Phrase → Node
  | .factor => factor
  | .chain .product => product
  | .chain .sum => sum

/-- Building the calculator cannot go wrong, and gives rules of the right shape. -/
theorem calculator_builds (s : Session) : Build.Yields calculator s fun r s' =>
    s'.journal = s.journal ∧ IsCalculator s'.slots r.node := by
  unfold calculator
  refine (symbol_makes read_opening).step (.refl s) fun opened s₁ g₁ hopened => ?_
  obtain ⟨hopened, hchain, hlt⟩ := hopened
  refine (Build.markInjection_makes opened).step (.refl s₁) fun nested _ g hnested => ?_
  refine (symbol_makes read_closing).step g fun closed _ g hclosed => ?_
  refine (Build.andThen_makes nested closed).step g fun group _ g hgroup => ?_
  refine (lexeme_makes read_numeral).step g fun digits _ g hdigits => ?_
  refine (Build.map_makes digits toNumber).step g fun number _ g hnumber => ?_
  refine (Build.orElse_makes group number).step g fun factor _ g hfactor => ?_
  refine (chainOf_makes factor read_product).step g fun product _ g hproduct => ?_
  refine (chainOf_makes product read_sum).step g fun sum s₂ g hsum => ?_
  obtain ⟨⟨l, hl⟩, hchain₁⟩ := hnested
  obtain ⟨⟨j, hj⟩, hchain₂⟩ := hgroup
  obtain ⟨⟨m, hm⟩, -⟩ := hnumber
  obtain ⟨⟨i, hi⟩, hchain₃⟩ := hfactor
  obtain ⟨hproduct, hchain₄⟩ := hproduct
  obtain ⟨hsum, hchain₅⟩ := hsum
  -- all of them are on the chain that the opening parenthesis has started
  have hnested : opened.chain = sum.chain := by
    rw [hchain₅, hchain₄, hchain₃, hchain₂, hchain₁]
  have hslot : sum.chain = s.slots.size := hnested.symm.trans hchain
  have hempty : s₂.slots.target? sum.chain = none := by
    rw [(g₁.trans g).target?_eq, hslot]
    simp [Slots.target?]
  refine Build.inject_step (hslot ▸ Nat.lt_of_lt_of_le hlt g.size_le) hempty
    fun s₃ hfilled hjournal => ?_
  refine spaces_makes.step (.refl s₃) fun tail _ g' htail => ?_
  obtain ⟨root, s₄, hrun, g'', ⟨i', hi'⟩, -⟩ : Build.Makes _ _ _ := Build.andThen_makes sum tail
  refine ⟨root, s₄, hrun, ?_, ?_⟩
  · rw [(g'.trans g'').journal_eq, hjournal, (g₁.trans g).journal_eq]
  · have L : Layout s₄.slots sum.chain (nodeOf factor.node product.node sum.node) := by
      refine ⟨?_, fun l => ?_, ?_⟩
      · show IsFactor sum.chain factor.node
        rw [hi, hj, hl, hm, hnested]
        exact .mk i j l m hopened hclosed.1 hdigits.1
      · cases l with
        | product => exact hproduct
        | sum => exact hsum
      · rw [(g'.trans g'').target?_eq]
        exact hfilled
    rw [hi']
    exact .mk i' L htail.1

/-! ### The theorem -/

/-- The only injection point is the one behind the parenthesis. -/
theorem Layout.points (L : Layout slots slot node) (p : Phrase) :
    ∀ x ∈ (node p).points, x = slot := by
  have hfactor : ∀ x ∈ (node .factor).points, x = slot := by
    have h := L.factor
    generalize node .factor = n at h
    obtain ⟨i, j, l, m, hopen, hclose, hdigits⟩ := h
    simp [Node.points, hopen.points_eq, hclose.points_eq, hdigits.points_eq]
  have hchain {operand n : Node} {p : Pattern} (h : IsChain operand p n)
      (hoperand : ∀ x ∈ operand.points, x = slot) : ∀ x ∈ n.points, x = slot := by
    obtain ⟨i, j, l, m, hop⟩ := h
    intro x hx
    simp only [Node.points, hop.points_eq, List.nil_append, List.mem_append, or_self] at hx
    exact hoperand x hx
  have hproduct := hchain (L.chain .product) hfactor
  cases p with
  | factor => exact hfactor
  | chain l =>
    cases l with
    | product => exact hproduct
    | sum => exact hchain (L.chain .sum) hproduct

theorem IsCalculator.resolved {n : Node} (h : IsCalculator slots n) : n.Resolved slots := by
  obtain ⟨i, L, hspaces⟩ := h
  rename_i slot node tail
  refine Node.resolved_of_points (P := (· = slot)) ?_ ?_
  · rintro _ rfl
    exact ⟨_, L.filled, L.points (.chain .sum)⟩
  · intro x hx
    simp only [Node.points, hspaces.points_eq, List.append_nil] at hx
    exact L.points (.chain .sum) x hx

theorem IsCalculator.label_eq {n : Node} (h : IsCalculator slots n) : n.label = .ok "and" := by
  cases h
  rfl

/-- Parsing a sentence gives the value of its tree. -/
theorem IsCalculator.parse_endsWith {s : Session} {r : Rule} (h : IsCalculator s.slots r.node)
    (ht : s.journal.trace = false) (sentence : Sentence text) :
    EndsWith (fun fuel => (s.parse fuel r text).1) (sentence.tree.value.map ([·])) := by
  have hend := Session.parse_endsWith (.of_not_trace ht) h.label_eq h.resolved (h.derives sentence)
  cases hv : sentence.tree.value with
  | error f =>
    rw [hv] at hend
    exact hend
  | ok v =>
    rw [hv] at hend
    have hall : Session.conclusion text (.success [v] (.num text.length)) = .ok [v] :=
      Session.conclusion_success rfl
    simpa [ending, Except.map, bind, Except.bind, hall] using hend

/-- What the calculator makes of a text whose ending is derived. -/
theorem calculate_endsWith {s : Session} (hs : s.journal.trace = false) (text : List Char) :
    ∃ slots n, IsCalculator slots n ∧ ∀ e, Derives slots text (.node n (.num 0)) e →
      EndsWith (fun fuel => calculate fuel s text)
        (e >>= fun result => Session.conclusion text result >>= firstOf) := by
  obtain ⟨r, s', hbuild, hjournal, hr⟩ := calculator_builds s
  refine ⟨s'.slots, r.node, hr, fun e he => ?_⟩
  have hfree : s'.RunsFreely text r.node := .of_not_trace (by rw [hjournal, hs])
  exact firstToken_endsWith hbuild hfree hr.label_eq hr.resolved he

/-- **The calculator accepts its grammar and computes the right value.** On a text that has
a derivation tree it ends with the value of the tree or with the fault of its evaluation;
on any other text it ends with a fault. -/
theorem calculate_correct (s : Session) (hs : s.journal.trace = false) (text : List Char) :
    (∀ sentence : Sentence text,
        EndsWith (fun fuel => calculate fuel s text) sentence.tree.value) ∧
      (¬ Nonempty (Sentence text) →
        ∃ f, EndsWith (fun fuel => calculate fuel s text) (.error f)) := by
  obtain ⟨slots, n, hn, hends⟩ := calculate_endsWith hs text
  constructor
  · intro sentence
    have hend := hends _ (hn.derives sentence)
    cases hv : sentence.tree.value with
    | error f =>
      rw [hv] at hend
      exact hend
    | ok v =>
      rw [hv] at hend
      have hall : Session.conclusion text (.success [v] (.num text.length)) = .ok [v] :=
        Session.conclusion_success rfl
      simpa [ending, Except.map, bind, Except.bind, hall, firstOf] using hend
  · intro hno
    obtain ⟨e, he, hmeets⟩ := hn.answers text
    have hend := hends e he
    cases e with
    | error f => exact ⟨f, hend⟩
    | ok result =>
      rcases Session.conclusion_cases text result with ⟨tokens, q, rfl, hq⟩ | ⟨failure, hfailure⟩
      · exact absurd (hmeets hq) hno
      · simp only [bind, Except.bind, hfailure] at hend
        exact ⟨_, hend⟩

/-- The text `2*(3+4)` and a space after it is fourteen. -/
theorem calculate_correct_fourteen :
    (Session.new (Journal.new false "WARNING")).journal.trace = false ∧
      EndsWith (fun fuel => calculate fuel (Session.new (Journal.new false "WARNING"))
        ['2', '*', '(', '3', '+', '4', ')', ' ']) (.ok (.int 14)) := by
  let none : Blanks := ⟨[], by decide⟩
  let digit (c : Char) (hc : Pattern.isDigit c = true) : Tree .factor :=
    .number none ⟨[c], .inl ⟨by simp, by simpa using hc⟩⟩
  let term (f : Tree .factor) : Tree (.chain .product) := .chain (l := .product) f .nil
  let sum : Tree (.chain .sum) := .chain (l := .sum) (term (digit '3' (by decide)))
    (.cons none .plus (term (digit '4' (by decide))) .nil)
  let tree : Tree (.chain .sum) := .chain (l := .sum)
    (.chain (l := .product) (digit '2' (by decide))
      (.cons none .times (.group none sum none) .nil)) .nil
  let sentence : Sentence ['2', '*', '(', '3', '+', '4', ')', ' '] := ⟨tree, ⟨[' '], by decide⟩, rfl⟩
  have hvalue : sentence.tree.value = .ok (.int 14) := rfl
  exact ⟨rfl, hvalue ▸ (calculate_correct _ rfl _).1 sentence⟩

end LeafGrammar.Arithmetic
