import LeafGrammar.Proofs.Engine.Termination
import LeafGrammar.Proofs.Grammar.Calculator
import LeafGrammar.Proofs.Grammar.KeyValue
import LeafGrammar.Proofs.Grammar.Nested

/-!
# The bundled grammars end

Each bundled grammar has one injection point, and its base reads an opening parenthesis, an
opening brace or a digit before it comes to the rule in the slot. So the grammars are guarded,
and parsing with them ends on every text, with a trace or without (`guarded_ends`).
-/

namespace LeafGrammar

namespace Grammar

section

variable {slots : Slots} {text : List Char} {p : Pattern} {lang : List Char → Prop}
  {more : Char → Bool} {n : Node}

/-! ### Lexemes advance -/

theorem IsLexeme.advances (h : IsLexeme p n) (hp : IsToken p lang more) :
    n.Advances slots text := by
  obtain ⟨i, j, hspaces⟩ := h
  exact .seq (.leaf fun input hm => (hp.starts (hp.sound hm).1).1 rfl)

theorem IsSymbol.advances (h : IsSymbol p n) (hp : IsToken p lang more) :
    n.Advances slots text := by
  obtain ⟨i, hn⟩ := h
  exact .map (hn.advances hp)

theorem IsLexeme.injections_eq (h : IsLexeme p n) : n.injections = [] :=
  Node.injections_eq_nil h.points_eq

theorem IsSymbol.injections_eq (h : IsSymbol p n) : n.injections = [] :=
  Node.injections_eq_nil h.points_eq

theorem IsSpaces.injections_eq (h : IsSpaces n) : n.injections = [] :=
  Node.injections_eq_nil h.points_eq

/-! ### One injection point -/

/-- A node whose injection points all have the one slot and the one base, as have those of the
node in the slot, is guarded if the base advances. -/
theorem guarded_of_single {base target : Node} {slot : SlotId}
    (ht : slots.target? slot = some target) (hbase : base.Advances slots text)
    (hn : ∀ x ∈ n.injections, x = (base, slot))
    (htarget : ∀ x ∈ target.injections, x = (base, slot)) : n.Guarded slots text := by
  refine Node.guarded_of_injections (P := (· = (base, slot))) ?_ hn ?_
  · rintro _ target' rfl ht'
    rw [ht] at ht'
    cases ht'
    exact htarget
  · rintro _ rfl
    exact hbase

end

end Grammar

/-! ### The three grammars -/

open Grammar

variable {slots : Slots} {n : Node}

theorem Arithmetic.IsCalculator.guarded (h : Arithmetic.IsCalculator slots n) (text : List Char) :
    n.Guarded slots text := by
  obtain ⟨i, L, hspaces⟩ := h
  rename_i slot node tail
  obtain ⟨opened, hopened, hfactor⟩ : ∃ opened, IsSymbol (punctuation "\\(" '(') opened ∧
      ∀ x ∈ (node .factor).injections, x = (opened, slot) := by
    have h := L.factor
    generalize node .factor = n at h
    obtain ⟨i, j, l, m, hopen, hclose, hdigits⟩ := h
    refine ⟨_, hopen, ?_⟩
    simp [Node.injections, hopen.injections_eq, hclose.injections_eq, hdigits.injections_eq]
  have hchain {operand n : Node} {p : Pattern} (h : Arithmetic.IsChain operand p n)
      (hoperand : ∀ x ∈ operand.injections, x = (opened, slot)) :
      ∀ x ∈ n.injections, x = (opened, slot) := by
    obtain ⟨i, j, l, m, hop⟩ := h
    intro x hx
    simp only [Node.injections, hop.injections_eq, List.nil_append, List.mem_append, or_self] at hx
    exact hoperand x hx
  have hsum := hchain (L.chain .sum) (hchain (L.chain .product) hfactor)
  refine guarded_of_single L.filled (hopened.advances openingParenthesis_isToken) ?_ hsum
  intro x hx
  simp only [Node.injections, hspaces.injections_eq, List.append_nil] at hx
  exact hsum x hx

theorem Blocks.IsKeyValue.guarded (h : Blocks.IsKeyValue slots n) (text : List Char) :
    n.Guarded slots text := by
  obtain ⟨i, ⟨hcontent, hpair, hbody, hfilled⟩, hspaces⟩ := h
  rename_i slot content pair body tail
  obtain ⟨base, hbase, hpoints⟩ : ∃ base, base.Advances slots text ∧
      ∀ x ∈ body.injections, x = (base, slot) := by
    obtain ⟨_, _, _, _, anchored, anchor, _, hopen, hclose, hquoted, hbare⟩ := hcontent
    obtain ⟨_, _, _, hkey, hequals⟩ := hpair
    obtain ⟨_, _, _, _, _, _, _, _, _, hsep, hlast⟩ := hbody
    refine ⟨.seq anchored (.empty anchor) _, .seq (hopen.advances Blocks.opening_isToken), ?_⟩
    simp [Node.injections, hopen.injections_eq, hclose.injections_eq, hquoted.injections_eq,
      hbare.injections_eq, hkey.injections_eq, hequals.injections_eq, hsep.injections_eq,
      hlast.injections_eq]
  refine guarded_of_single hfilled hbase ?_ hpoints
  intro x hx
  simp only [Node.injections, hspaces.injections_eq, List.append_nil] at hx
  exact hpoints x hx

theorem Nests.IsNested.guarded (h : Nests.IsNested slots n) (text : List Char) :
    n.Guarded slots text := by
  obtain ⟨i, j, l, m, o, hopen, hdigit, hclose, hfilled⟩ := h
  rename_i slot opened digit closed
  have hpoints : ∀ x ∈ (Node.choice i (.seq j (.splice l (.seq m opened digit) slot) closed)
      (.empty o)).injections, x = (.seq m opened digit, slot) := by
    simp [Node.injections, hopen.injections_eq, hdigit.injections_eq, hclose.injections_eq]
  exact guarded_of_single hfilled (.seq (hdigit.advances Nests.digit_isToken)) hpoints hpoints

namespace Grammar

/-- Building a bundled grammar cannot go wrong, and gives a guarded rule. -/
theorem Bundled.builds_guarded (g : Bundled) (s : Session) :
    ∃ r s', g.build s = (.ok r, s') ∧ ∀ text, r.node.Guarded s'.slots text := by
  match g with
  | .calc =>
    obtain ⟨r, s', hbuild, -, hr⟩ := Arithmetic.calculator_builds s
    exact ⟨r, s', hbuild, hr.guarded⟩
  | .kv =>
    obtain ⟨r, s', hbuild, -, hr⟩ := Blocks.keyValue_builds s
    exact ⟨r, s', hbuild, hr.guarded⟩
  | .nested =>
    obtain ⟨r, s', hbuild, -, hr⟩ := Nests.nestedDigits_builds s
    exact ⟨r, s', hbuild, hr.guarded⟩

/-- Parsing with a guarded rule ends. -/
theorem parse_ends {s : Session} {r : Rule} {text : List Char}
    (h : r.node.Guarded s.slots text) :
    ∃ moves, ∀ fuel, moves ≤ fuel → (s.parse fuel r text).1 ≠ .outOfFuel := by
  rcases s.parse_cases r text with ⟨f, -, hparse⟩ | ⟨j, -, hparse⟩
  · refine ⟨0, fun fuel _ => ?_⟩
    rw [hparse]
    exact nofun
  · obtain ⟨e, hd⟩ := h.exists_derives (.num 0)
    obtain ⟨moves, hmoves⟩ := hd.exists_moves
    refine ⟨moves, fun fuel hfuel => ?_⟩
    rw [hparse]
    exact Outcome.andThen_ne_outOfFuel (hmoves fuel hfuel j) _

/-- **Guarded rules end.** If the base of every injection point that a rule can come to succeeds
only behind where it started, then every run of the rule ends after finitely many moves, from
every offset, in every journal and with any repetitions in it. The bundled grammars are such
rules on every text, so parsing a text with one of them ends. -/
theorem guarded_ends :
    (∀ (slots : Slots) (root : Node) (text : List Char), root.Guarded slots text →
        ∀ pos : Integral, ∃ moves, ∀ fuel, moves ≤ fuel → ∀ j : Journal,
          (evaluateIn fuel slots text root pos j).1 ≠ .outOfFuel) ∧
      ∀ (g : Bundled) (s : Session), ∃ r s', g.build s = (.ok r, s') ∧
        (∀ text, r.node.Guarded s'.slots text) ∧
          ∀ text, ∃ moves, ∀ fuel, moves ≤ fuel → (g.parse fuel s text).1 ≠ .outOfFuel := by
  constructor
  · intro slots root text h pos
    obtain ⟨e, hd⟩ := h.exists_derives pos
    exact hd.exists_moves
  · intro g s
    obtain ⟨r, s', hbuild, hguarded⟩ := g.builds_guarded s
    refine ⟨r, s', hbuild, hguarded, fun text => ?_⟩
    unfold Bundled.parse
    rw [hbuild]
    exact parse_ends (hguarded text)

/-- A rule that comes back to itself behind some white space, over and over. Its repetition may
make a round of nothing, and starts the rule in the slot again, but only behind the white
space. -/
def overAndOver : Node :=
  .rep 4 (.choice 3 (.splice 1 (.leaf 0 blankRun) 0) (.empty 2)) (.num 0) none

theorem guarded_ends_overAndOver :
    overAndOver.Guarded #[some overAndOver] [' ', ' '] ∧
      ∃ moves, ∀ fuel, moves ≤ fuel → ∀ j : Journal,
        (evaluateIn fuel #[some overAndOver] [' ', ' '] overAndOver (.num 0) j).1 ≠ .outOfFuel := by
  have hleaf : (Node.leaf 0 blankRun).Advances #[some overAndOver] [' ', ' '] :=
    .leaf fun input hm => (reads_blankRun.sound hm).1.1 rfl
  have hpoints : ∀ x ∈ overAndOver.injections, x = (.leaf 0 blankRun, 0) := by
    simp [overAndOver, Node.injections]
  have hguarded : overAndOver.Guarded #[some overAndOver] [' ', ' '] :=
    guarded_of_single rfl hleaf hpoints hpoints
  exact ⟨hguarded, guarded_ends.1 _ _ _ hguarded (.num 0)⟩

end Grammar

end LeafGrammar
