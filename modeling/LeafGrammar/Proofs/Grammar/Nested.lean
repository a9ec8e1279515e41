import LeafGrammar.Grammar.Nested
import LeafGrammar.Proofs.Grammar.Lexeme
import LeafGrammar.Proofs.Text.Ranges

/-!
# The rule for nested digits

The rule is known by its shape (`IsNested`): a parenthesis and a digit, behind them the rule
itself through its slot, then the other parenthesis; or nothing. Building it cannot go wrong
(`nestedDigits_builds`).
-/

namespace LeafGrammar.Nests

open Grammar

/-- The pattern for a single digit. -/
def digitPattern : Pattern := .ofRegex "\\d" (.one (.item ⟨.named .digit false, false⟩) .exact)

theorem digit_isToken :
    IsToken digitPattern (Pattern.IsSingle Pattern.isDigit) fun _ => false := by
  refine ⟨Pattern.contains_digit ▸ Pattern.reads_one _ _, ?_⟩
  rintro w ⟨c, hc, rfl⟩
  refine ⟨by simp, Pattern.stops_cons.mpr ?_⟩
  cases hb : Text.isBlank c with
  | false => rfl
  | true => simp [Pattern.isDigit_of_isBlank hb] at hc

/-- The shape of the rule, which stands in the slot behind the digit. -/
inductive IsNested (slots : Slots) : Node → Prop where
  | mk (i j l m o : NodeId) {slot : SlotId} {opened digit closed : Node} :
      IsSymbol (punctuation "\\(" '(') opened → IsLexeme digitPattern digit →
        IsSymbol (punctuation "\\)" ')') closed →
          slots.target? slot = some
            (.choice i (.seq j (.splice l (.seq m opened digit) slot) closed) (.empty o)) →
            IsNested slots
              (.choice i (.seq j (.splice l (.seq m opened digit) slot) closed) (.empty o))

/-- Building the rule cannot go wrong, and gives one of the right shape. -/
theorem nestedDigits_builds (s : Session) : Build.Yields nestedDigits s fun r s' =>
    s'.journal = s.journal ∧ IsNested s'.slots r.node := by
  unfold nestedDigits
  refine (symbol_makes (p := punctuation "\\(" '(') rfl).step (.refl s) fun opened s₁ g₁ hopened => ?_
  obtain ⟨hopened, hchain, hlt⟩ := hopened
  refine (lexeme_makes (p := digitPattern) rfl).step (.refl s₁) fun digit _ g hdigit => ?_
  refine (Build.andThen_makes opened digit).step g fun head _ g hhead => ?_
  refine (Build.markInjection_makes head).step g fun inner _ g hinner => ?_
  refine (symbol_makes (p := punctuation "\\)" ')') rfl).step g fun closed _ g hclosed => ?_
  refine (Build.andThen_makes inner closed).step g fun nest _ g hnest => ?_
  refine (Build.issueFresh_makes (.empty ·)).step g fun nothing _ g hnothing => ?_
  refine (Build.orElse_makes nest nothing).step g fun whole s₂ g hwhole => ?_
  obtain ⟨⟨m, hm⟩, hchain₁⟩ := hhead
  obtain ⟨⟨l, hl⟩, hchain₂⟩ := hinner
  obtain ⟨⟨j, hj⟩, hchain₃⟩ := hnest
  obtain ⟨⟨o, ho⟩, -⟩ := hnothing
  obtain ⟨⟨i, hi⟩, hchain₄⟩ := hwhole
  -- all of them are on the chain that the opening parenthesis has started
  have hhead : head.chain = whole.chain := by rw [hchain₄, hchain₃, hchain₂]
  have hslot : whole.chain = s.slots.size := by rw [← hhead, hchain₁, hchain]
  have hempty : s₂.slots.target? whole.chain = none := by
    rw [(g₁.trans g).target?_eq, hslot]
    simp [Slots.target?]
  obtain ⟨s₃, hrun, hfilled, hjournal⟩ :=
    Build.inject_run (hslot ▸ Nat.lt_of_lt_of_le hlt g.size_le) hempty
  refine ⟨whole, s₃, hrun, by rw [hjournal, (g₁.trans g).journal_eq], ?_⟩
  have hnode : whole.node =
      .choice i (.seq j (.splice l (.seq m opened.node digit.node) whole.chain) closed.node)
        (.empty o) := by
    rw [hi, hj, hl, hm, ho, hhead]
  rw [hnode] at hfilled ⊢
  exact .mk i j l m o hopened hdigit.1 hclosed.1 hfilled

end LeafGrammar.Nests
