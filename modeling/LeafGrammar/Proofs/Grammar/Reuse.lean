import LeafGrammar.Proofs.Grammar.Calculator
import LeafGrammar.Proofs.Session.History

/-!
# One rule for many texts

A grammar that is built twice gives two rules that are alike: the numbers of their nodes differ, and
so does the slot behind the parenthesis, but the shape of the rules is all there is to them
(`Arithmetic.IsCalculator.evaluate_eq`). And parsing with a rule leaves the rule as it was. So one
calculator for all texts gives what a fresh one would give on each of them.
-/

namespace LeafGrammar

/-! ### Rules of one shape are alike -/

namespace Grammar

variable {R : SlotId → SlotId → Prop} {p : Pattern} {n' n : Node}

theorem IsSpaces.alike (h' : IsSpaces n') (h : IsSpaces n) : n'.Alike R n := by
  cases h'
  cases h
  exact .rep _ _ _ _ (.map _ _ _ (.leaf _ _ _))

theorem IsLexeme.alike (h' : IsLexeme p n') (h : IsLexeme p n) : n'.Alike R n := by
  obtain ⟨i', j', hb'⟩ := h'
  obtain ⟨i, j, hb⟩ := h
  exact .seq _ _ (hb'.alike hb) (.leaf _ _ _)

theorem IsSymbol.alike (h' : IsSymbol p n') (h : IsSymbol p n) : n'.Alike R n := by
  obtain ⟨i', hn'⟩ := h'
  obtain ⟨i, hn⟩ := h
  exact .map _ _ _ (hn'.alike hn)

end Grammar

namespace Arithmetic

open Grammar

variable {R : SlotId → SlotId → Prop} {slot' slot : SlotId} {slots' slots : Slots} {n' n : Node}

theorem IsFactor.alike (h' : IsFactor slot' n') (h : IsFactor slot n) (hslot : R slot' slot) :
    n'.Alike R n := by
  obtain ⟨i', j', l', m', hopen', hclose', hdigits'⟩ := h'
  obtain ⟨i, j, l, m, hopen, hclose, hdigits⟩ := h
  refine .choice _ _ (.seq _ _ (.splice _ _ ?_ hslot) ?_) (.map _ _ _ ?_)
  · exact hopen'.alike hopen
  · exact hclose'.alike hclose
  · exact hdigits'.alike hdigits

theorem IsChain.alike {operand' operand : Node} {p : Pattern} (h' : IsChain operand' p n')
    (h : IsChain operand p n) (hoperand : operand'.Alike R operand) : n'.Alike R n := by
  obtain ⟨i', j', l', m', hop'⟩ := h'
  obtain ⟨i, j, l, m, hop⟩ := h
  refine .map _ _ _ (.seq _ _ hoperand (.rep _ _ _ _ (.seq _ _ ?_ hoperand)))
  exact hop'.alike hop

/-- The rules for expressions of two calculators are alike, the slots behind the parentheses
standing for each other. -/
theorem Layout.alike {node' node : Phrase → Node} (L' : Layout slots' slot' node')
    (L : Layout slots slot node) (hslot : R slot' slot) :
    (node' (.chain .sum)).Alike R (node (.chain .sum)) := by
  have hfactor := L'.factor.alike L.factor hslot
  have hproduct := (L'.chain .product).alike (L.chain .product) hfactor
  exact (L'.chain .sum).alike (L.chain .sum) hproduct

/-- **Two calculators do the same**, after as many moves. -/
theorem IsCalculator.evaluate_eq (h' : IsCalculator slots' n') (h : IsCalculator slots n)
    (fuel : Nat) (text : List Char) (pos : Integral) :
    evaluate fuel slots' text n' pos = evaluate fuel slots text n pos := by
  obtain ⟨i', L', htail'⟩ := h'
  obtain ⟨i, L, htail⟩ := h
  rename_i slot' node' tail' slot node tail
  have hslots : slots'.Alike (fun a b => a = slot' ∧ b = slot) slots := by
    rintro _ _ ⟨rfl, rfl⟩
    rw [L'.filled, L.filled]
    exact .some (L'.alike L ⟨rfl, rfl⟩)
  exact evaluate_eq_of_alike hslots (.seq i' i (L'.alike L ⟨rfl, rfl⟩) (htail'.alike htail)) fuel
    text pos

theorem IsCalculator.parse_eq {s' s : Session} {r' r : Rule} (h' : IsCalculator s'.slots r'.node)
    (h : IsCalculator s.slots r.node) (ht' : s'.journal.trace = false)
    (ht : s.journal.trace = false) (fuel : Nat) (text : List Char) :
    (s'.parse fuel r' text).1 = (s.parse fuel r text).1 :=
  Session.parse_congr ht ht' h.resolved h'.resolved (h'.label_eq.trans h.label_eq.symm)
    (h'.evaluate_eq h) fuel text

/-- What a fresh calculator gives is what any calculator gives. -/
theorem IsCalculator.calculate_eq {s fresh : Session} {r : Rule}
    (h : IsCalculator s.slots r.node) (ht : s.journal.trace = false)
    (hfresh : fresh.journal.trace = false) (fuel : Nat) (text : List Char) :
    calculate fuel fresh text = firstToken (s.parse fuel r text).1 := by
  obtain ⟨r', s', hbuild, hjournal, hr'⟩ := calculator_builds fresh
  have hparse : Bundled.calc.parse fuel fresh text = s'.parse fuel r' text := by
    rw [Bundled.parse, Bundled.build, hbuild]
    rfl
  rw [calculate, hparse, hr'.parse_eq h (by rw [hjournal, hfresh]) ht]

/-- A calculator gives on each text of a list what a fresh one gives on it alone. By the list: what
parsing leaves behind is a calculator still. -/
theorem IsCalculator.calculateEach_eq {fresh : List Char → Session}
    (hfresh : ∀ text, (fresh text).journal.trace = false) (fuel : Nat) (r : Rule)
    (texts : List (List Char)) {s : Session} (h : IsCalculator s.slots r.node)
    (ht : s.journal.trace = false) :
    calculateEach fuel r s texts = texts.map fun text => calculate fuel (fresh text) text := by
  induction texts generalizing s with
  | nil => rfl
  | cons text rest ih =>
    obtain ⟨passed, written, hparse⟩ := s.parse_snd fuel r text
    have hrest := ih (s := (s.parse fuel r text).2) (by rw [hparse]; exact h)
      (by rw [hparse]; exact ht)
    rw [List.map_cons, h.calculate_eq ht (hfresh text), ← hrest]
    rfl

theorem calculateAll_eq {s : Session} {fresh : List Char → Session}
    (hs : s.journal.trace = false) (hfresh : ∀ text, (fresh text).journal.trace = false)
    (fuel : Nat) (texts : List (List Char)) :
    calculateAll fuel s texts = texts.map fun text => calculate fuel (fresh text) text := by
  obtain ⟨r, s', hbuild, hjournal, hr⟩ := calculator_builds s
  delta calculateAll
  rw [hbuild]
  exact hr.calculateEach_eq hfresh fuel r texts (by rw [hjournal, hs])

end Arithmetic

namespace Grammar

/-- **Running does not depend on what was called before.** Without a trace, a rule that the check
passes is run and parsed to the same ending in every later session, whatever calls were made and
however they ended. And one calculator for a list of texts gives on each of them what a calculator
that is built for it alone gives. -/
theorem history_independent :
    (∀ (s : Session) (r : Rule), s.Reachable → s.journal.trace = false → r ∈ s.rules →
      (Build.check r s).1 = .ok () → ∀ s', s.Later s' → ∀ (fuel : Nat) (text : List Char),
        (∀ pos, (s'.run fuel r text pos).1 = (s.run fuel r text pos).1) ∧
          (s'.parse fuel r text).1 = (s.parse fuel r text).1) ∧
    ∀ (s : Session) (fresh : List Char → Session), s.journal.trace = false →
      (∀ text, (fresh text).journal.trace = false) → ∀ (fuel : Nat) (texts : List (List Char)),
        calculateAll fuel s texts = texts.map fun text => calculate fuel (fresh text) text := by
  constructor
  · intro s r hs ht hr hcheck s' hlater fuel text
    constructor
    · intro pos
      exact Session.run_later hs ht hr hcheck hlater fuel text pos
    · exact Session.parse_later hs ht hr hcheck hlater fuel text
  · intro s fresh hs hfresh fuel texts
    exact Arithmetic.calculateAll_eq hs hfresh fuel texts

/-- Letters `a`, as many as there are: the rule is injected behind its own first letter. A second
injection, which is refused, and a rule that is built besides do not change what it reads. -/
theorem history_independent_letters :
    ∃ (s s' : Session) (r : Rule), s.Reachable ∧ s.journal.trace = false ∧ r ∈ s.rules ∧
      (Build.check r s).1 = .ok () ∧ s.Later s' ∧ s'.rules.size = 4 ∧
      (s'.run 40 r ['a', 'a', 'b'] (.int 0)).1 =
        .value (.success [.text "a", .text "a"] (.num 2)) ∧
      calculateAll 400 s [['(', '1'], ['1', '/', '0'], ['2']] =
        [calculate 400 (.new s.journal) ['(', '1'], calculate 400 (.new s.journal) ['1', '/', '0'],
          calculate 400 (.new s.journal) ['2']] := by
  let quiet := Journal.new false "WARNING"
  let letter : Rule := ⟨0, .leaf 0 (.ofRegex "a" (.one (.ofChar 'a') .exact)), 0⟩
  let point : Rule := ⟨1, .splice 1 letter.node 0, 0⟩
  let letters : Rule := ⟨2, .rep 2 point.node (.num 0) (some (.num 1)), 0⟩
  let last : Rule := ⟨3, .empty 3, 1⟩
  let s₁ : Session := ⟨#[letter], #[none], #[false], quiet⟩
  let s₂ : Session := ⟨#[letter, point], #[none], #[false, false], quiet⟩
  let s₃ : Session := ⟨#[letter, point, letters], #[none], #[false, false, false], quiet⟩
  let s : Session := ⟨#[letter, point, letters], #[some letters.node], #[false, false, false], quiet⟩
  let s' : Session := ⟨#[letter, point, letters, last], #[some letters.node, none],
    #[false, false, false, false], quiet⟩
  have h₁ : (Session.new quiet).Later s₁ := .call (.leaf (.text "a") .none) .refl trivial
  have h₂ : (Session.new quiet).Later s₂ := .call (.markInjection letter) h₁ (by simp [s₁, Call.IsOn])
  have h₃ : (Session.new quiet).Later s₃ :=
    .call (.rep point (.int 0) (.int 1)) h₂ (by simp [s₂, Call.IsOn])
  have hr : letters ∈ s.rules := by simp [s]
  have hs : s.Reachable := ⟨quiet, .call (.inject letters) h₃ hr⟩
  have hlater : s.Later s' := .call .empty (.call (.inject letters) .refl hr) trivial
  have hcheck : (Build.check letters s).1 = .ok () := rfl
  have hrun : (s.run 40 letters ['a', 'a', 'b'] (.int 0)).1 =
      .value (.success [.text "a", .text "a"] (.num 2)) := rfl
  refine ⟨s, s', letters, hs, rfl, hr, hcheck, hlater, rfl, ?_, ?_⟩
  · rw [← hrun]
    exact (history_independent.1 s letters hs rfl hr hcheck s' hlater 40 _).1 _
  · exact history_independent.2 s (fun _ => .new s.journal) rfl (fun _ => rfl) 400 _

end Grammar

end LeafGrammar
