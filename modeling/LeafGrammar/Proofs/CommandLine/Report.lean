import LeafGrammar.CommandLine.Report
import LeafGrammar.Proofs.Grammar.Safety
import LeafGrammar.Proofs.Session.Diagnosis

/-!
# What the program tells of a parse

A report accords with the outcome of a parse if its exit code says which sort of outcome it
is, its output has one line for each token in order and nothing but that, and the program has
come to an end by itself (`Report.AccordsWith`). Reports do so but for two sorts of outcomes:
tokens of which one cannot be shown, and a parse failure that cannot be rendered. There a
fault leaves the program (`Session.report_accords_iff`).

The calculator gives one number, and its parse failures can be rendered. So its report
accords with the outcome unless the number is an integer with too many digits to be shown.
Such an integer is soon found: the product of two numbers that can be written is one.
-/

namespace LeafGrammar

/-! ### Tokens, line by line -/

namespace Report

/-- The line for token number `i`. -/
def line (i : Nat) (shown : String) : String := index i ++ ": " ++ shown ++ "\n"

/-- The lines for some tokens that can be shown. -/
def lines (shown : List String) : String := String.join (shown.mapIdx line)

end Report

namespace Value

theorem shownAll_cons_eq_ok {v : Value} {vs : List Value} {parts : List String}
    (h : shownAll (v :: vs) = .ok parts) :
    ∃ first others, v.shown = .ok first ∧ shownAll vs = .ok others ∧ parts = first :: others := by
  rw [shownAll] at h
  cases hv : v.shown with
  | error f =>
    rw [hv] at h
    cases h
  | ok first =>
    cases hvs : shownAll vs with
    | error f =>
      rw [hv, hvs] at h
      cases h
    | ok others =>
      rw [hv, hvs] at h
      cases h
      exact ⟨first, others, rfl, rfl, rfl⟩

theorem shownAll_singleton (v : Value) : shownAll [v] = v.shown.map ([·]) := by
  rw [shownAll, shownAll]
  cases v.shown <;> rfl

/-- The numbers that cannot be shown are the integers with too many digits. -/
theorem IsNumber.shown_eq_error {v : Value} {f : Fault} (hv : v.IsNumber)
    (h : v.shown = .error f) :
    f = .value .tooManyDigitsToShow ∧ ∃ n, v = .int n ∧ Number.isWritable n = false := by
  cases v with
  | int n =>
    rw [shown, Number.showInt] at h
    split at h
    · cases h
    · rename_i hn
      cases h
      exact ⟨rfl, n, rfl, Bool.eq_false_iff.mpr hn⟩
  | float x =>
    rw [shown] at h
    cases h
  | nan mark =>
    rw [shown] at h
    cases h
  | _ => exact hv.elim

/-- If not all values can be shown there is a first one that cannot. -/
theorem exists_of_shownAll_eq_error {vs : List Value} {f : Fault} (h : shownAll vs = .error f) :
    ∃ before bad after shown, vs = before ++ bad :: after ∧ shownAll before = .ok shown ∧
      bad.shown = .error f := by
  induction vs with
  | nil =>
    rw [shownAll] at h
    cases h
  | cons v vs ih =>
    rw [shownAll] at h
    cases hv : v.shown with
    | error g =>
      rw [hv] at h
      cases h
      exact ⟨[], v, vs, [], rfl, by rw [shownAll], hv⟩
    | ok first =>
      cases hvs : shownAll vs with
      | ok others =>
        rw [hv, hvs] at h
        cases h
      | error g =>
        rw [hv, hvs] at h
        cases h
        obtain ⟨before, bad, after, shown, rfl, hbefore, hbad⟩ := ih hvs
        refine ⟨v :: before, bad, after, first :: shown, rfl, ?_, hbad⟩
        rw [shownAll, hv, hbefore]
        rfl

end Value

namespace Report

/-- Tokens that can be shown are printed, one after the other, before what follows them. -/
theorem tokenLines_append {tokens : List Value} {shown : List String}
    (h : Value.shownAll tokens = .ok shown) (i : Nat) (rest : List Value) (acc : List String) :
    tokenLines i (tokens ++ rest) acc = tokenLines (i + tokens.length) rest
      ((shown.mapIdx fun k => line (i + k)).reverse ++ acc) := by
  induction tokens generalizing i shown acc with
  | nil =>
    rw [Value.shownAll] at h
    cases h
    rfl
  | cons token tokens ih =>
    obtain ⟨first, others, hfirst, hothers, rfl⟩ := Value.shownAll_cons_eq_ok h
    rw [List.cons_append, tokenLines, hfirst]
    simp only
    rw [ih hothers, List.mapIdx_cons, List.length_cons]
    simp only [Nat.add_assoc, Nat.add_comm 1, Nat.add_zero, List.reverse_cons, List.append_assoc,
      List.singleton_append]
    rfl

/-- Tokens that can all be shown have a line each. -/
theorem ofTokens_of_shownAll {tokens : List Value} {shown : List String}
    (h : Value.shownAll tokens = .ok shown) : ofTokens tokens = ⟨.exit 0, lines shown, ""⟩ := by
  have hlines := tokenLines_append h 0 [] []
  rw [List.append_nil, tokenLines] at hlines
  unfold ofTokens
  rw [hlines]
  simp [lines]

/-- A token that cannot be shown is a fault that leaves the program, after the lines before it. -/
theorem ofTokens_of_error {before after : List Value} {bad : Value} {shown : List String} {f : Fault}
    (h : Value.shownAll before = .ok shown) (hbad : bad.shown = .error f) :
    ofTokens (before ++ bad :: after) = ⟨.escaped f, lines shown, ""⟩ := by
  have hlines := tokenLines_append h 0 (bad :: after) []
  rw [tokenLines, hbad] at hlines
  unfold ofTokens
  rw [hlines]
  simp [lines]

end Report

/-! ### Outcomes -/

/-- A fault that is neither a parse failure nor one of the grammar. -/
def Fault.IsOther (f : Fault) : Prop :=
  (∀ failure, f ≠ .parse failure) ∧ ∀ cause, f ≠ .grammar cause

/-- The outcome cannot be told: one of the tokens cannot be shown, or the parse failure cannot be
rendered. -/
def Outcome.EscapesWith (f : Fault) : Outcome (List Value) → Prop
  | .value tokens => Value.shownAll tokens = .error f
  | .raised (.parse failure) => failure.render = .error f
  | _ => False

theorem Outcome.EscapesWith.unique {outcome : Outcome (List Value)} {f g : Fault}
    (hf : outcome.EscapesWith f) (hg : outcome.EscapesWith g) : f = g := by
  match outcome, hf, hg with
  | .value tokens, hf, hg => exact Except.error.inj (hf.symm.trans hg)
  | .raised (.parse failure), hf, hg => exact Except.error.inj (hf.symm.trans hg)

namespace Report

/-- **The contract of exit codes.** -/
structure AccordsWith (report : Report) (outcome : Outcome (List Value)) : Prop where
  /-- The program ends by itself if the parse does. -/
  returns : outcome ≠ .outOfFuel → ∃ code, report.ending = .exit code
  exit_zero_iff : report.ending = .exit 0 ↔ ∃ tokens, outcome = .value tokens
  exit_one_iff : report.ending = .exit 1 ↔ ∃ failure, outcome = .raised (.parse failure)
  exit_two_iff : report.ending = .exit 2 ↔ ∃ cause, outcome = .raised (.grammar cause)
  exit_three_iff : report.ending = .exit 3 ↔ ∃ f, outcome = .raised f ∧ f.IsOther
  /-- The tokens are printed, one on each line, and nothing else is. -/
  printed : ∀ tokens, outcome = .value tokens → ∃ shown, Value.shownAll tokens = .ok shown ∧
    report.stdout = lines shown ∧ report.stderr = ""
  silent : ∀ code, report.ending = .exit code → code ≠ 0 → report.stdout = ""

/-- The exit code for each sort of faults. -/
def codeOf : Fault → Nat
  | .parse _ => 1
  | .grammar _ => 2
  | _ => 3

theorem accordsWith_failed (f : Fault) (stderr : String) :
    (failed (codeOf f) stderr).AccordsWith (.raised f) := by
  refine ⟨fun _ => ⟨_, rfl⟩, ?_, ?_, ?_, ?_, ?_, fun _ _ _ => rfl⟩
  all_goals cases f <;> simp [failed, codeOf, Fault.IsOther]

theorem accordsWith_tokens {tokens : List Value} {shown : List String}
    (h : Value.shownAll tokens = .ok shown) :
    (⟨.exit 0, lines shown, ""⟩ : Report).AccordsWith (.value tokens) := by
  refine ⟨fun _ => ⟨0, rfl⟩, by simp, by simp, by simp, by simp, ?_, ?_⟩
  · rintro _ ⟨⟩
    exact ⟨shown, h, rfl, rfl⟩
  · rintro code ⟨⟩ hcode
    exact absurd rfl hcode

/-- A fault is told, unless it is a parse failure that cannot be rendered. -/
theorem ofFault_cases (f : Fault) :
    (∃ stderr, ofFault f = failed (codeOf f) stderr ∧
        ¬ ∃ g, (Outcome.raised f).EscapesWith g) ∨
      ∃ g, (ofFault f).ending = .escaped g ∧ (Outcome.raised f).EscapesWith g := by
  cases f with
  | parse failure =>
    cases h : failure.render with
    | ok rendering =>
      refine .inl ⟨"[PARSE ERROR]\n" ++ rendering ++ "\n", by rw [ofFault, h]; rfl, ?_⟩
      rintro ⟨g, hg⟩
      rw [Outcome.EscapesWith, h] at hg
      cases hg
    | error g => exact .inr ⟨g, by rw [ofFault, h], h⟩
  | _ =>
    refine .inl ⟨_, rfl, ?_⟩
    rintro ⟨g, hg⟩
    exact hg

/-- So are tokens, unless one of them cannot be shown. -/
theorem ofTokens_cases (tokens : List Value) :
    (∃ shown, Value.shownAll tokens = .ok shown ∧ ofTokens tokens = ⟨.exit 0, lines shown, ""⟩) ∨
      ∃ f, (ofTokens tokens).ending = .escaped f ∧ Value.shownAll tokens = .error f := by
  cases h : Value.shownAll tokens with
  | ok shown => exact .inl ⟨shown, rfl, ofTokens_of_shownAll h⟩
  | error f =>
    obtain ⟨before, bad, after, shown, rfl, hbefore, hbad⟩ := Value.exists_of_shownAll_eq_error h
    exact .inr ⟨f, by rw [ofTokens_of_error hbefore hbad], rfl⟩

/-- **A report accords with its outcome, or a fault leaves the program.** -/
theorem ofOutcome_cases (outcome : Outcome (List Value)) :
    ((ofOutcome outcome).AccordsWith outcome ∧ ¬ ∃ f, outcome.EscapesWith f) ∨
      ∃ f, (ofOutcome outcome).ending = .escaped f ∧ outcome.EscapesWith f := by
  cases outcome with
  | value tokens =>
    rcases ofTokens_cases tokens with ⟨shown, hshown, hreport⟩ | hescaped
    · refine .inl ⟨by rw [ofOutcome, hreport]; exact accordsWith_tokens hshown, ?_⟩
      rintro ⟨f, hf⟩
      rw [Outcome.EscapesWith, hshown] at hf
      cases hf
    · exact .inr hescaped
  | raised f =>
    rcases ofFault_cases f with ⟨stderr, hreport, htold⟩ | hescaped
    · exact .inl ⟨by rw [ofOutcome, hreport]; exact accordsWith_failed f stderr, htold⟩
    · exact .inr hescaped
  | outOfFuel =>
    refine .inl ⟨⟨fun h => absurd rfl h, ?_, ?_, ?_, ?_, ?_, ?_⟩, ?_⟩
    all_goals simp [ofOutcome, Outcome.EscapesWith]

/-- A report that accords with its outcome does not come from a fault that leaves the program. -/
theorem AccordsWith.ending_ne {outcome : Outcome (List Value)}
    (h : (ofOutcome outcome).AccordsWith outcome) (f : Fault) :
    (ofOutcome outcome).ending ≠ .escaped f := by
  intro hescaped
  by_cases hout : outcome = .outOfFuel
  · subst hout
    cases hescaped
  · obtain ⟨code, hcode⟩ := h.returns hout
    rw [hescaped] at hcode
    cases hcode

theorem accordsWith_iff (outcome : Outcome (List Value)) :
    (ofOutcome outcome).AccordsWith outcome ↔ ¬ ∃ f, outcome.EscapesWith f := by
  rcases ofOutcome_cases outcome with ⟨haccords, htold⟩ | ⟨f, hescaped, hf⟩
  · exact iff_of_true haccords htold
  · exact iff_of_false (fun haccords => haccords.ending_ne f hescaped) fun htold => htold ⟨f, hf⟩

theorem escaped_iff (outcome : Outcome (List Value)) (f : Fault) :
    (ofOutcome outcome).ending = .escaped f ↔ outcome.EscapesWith f := by
  rcases ofOutcome_cases outcome with ⟨haccords, htold⟩ | ⟨g, hescaped, hg⟩
  · exact iff_of_false (haccords.ending_ne f) fun hf => htold ⟨f, hf⟩
  · rw [hescaped]
    constructor
    · rintro ⟨⟩
      exact hg
    · intro hf
      rw [hg.unique hf]

end Report

/-! ### The calculator -/

namespace Arithmetic

variable {s : Session} {r : Rule} {fuel : Nat} {text : List Char}

/-- No action of the calculator raises a parse failure, so its parse failures can be rendered. -/
theorem IsCalculator.exists_render {failure : ParseFailure} (h : IsCalculator s.slots r.node)
    (hlen : text.length + 1 < 10 ^ digitLimit)
    (hparse : (s.parse fuel r text).1 = .raised (.parse failure)) :
    ∃ rendering, failure.render = .ok rendering := by
  rcases Session.parse_raised_parse hparse with hraised | ⟨result, hd, hc⟩
  · have hfault := (h.answers_number text).of_derives hraised.derives
    exact absurd rfl (IsArithmetic.ne_parse hfault failure)
  · obtain ⟨q, k, hsource, hpos, hk, d, hfits⟩ := Session.exists_diagnosis hd hc
    have hle : k ≤ text.length := hfits.le_length
    exact ⟨_, ParseFailure.render_eq hsource hpos hk (ParseFailure.detail?_eq hfits.starts)
      (by omega)⟩

/-- What cannot be told of the calculator is an integer with too many digits. -/
theorem IsCalculator.escapesWith_iff (h : IsCalculator s.slots r.node)
    (hlen : text.length + 1 < 10 ^ digitLimit) (f : Fault) :
    (s.parse fuel r text).1.EscapesWith f ↔ f = .value .tooManyDigitsToShow ∧
      ∃ n, (s.parse fuel r text).1 = .value [.int n] ∧ Number.isWritable n = false := by
  constructor
  · intro hescapes
    match hout : (s.parse fuel r text).1, hescapes with
    | .value tokens, hescapes =>
      obtain ⟨v, rfl, hv⟩ := h.parse_value hout
      rw [Outcome.EscapesWith, Value.shownAll_singleton] at hescapes
      cases hshown : v.shown with
      | ok shown =>
        rw [hshown] at hescapes
        cases hescapes
      | error g =>
        rw [hshown] at hescapes
        cases hescapes
        obtain ⟨rfl, n, rfl, hn⟩ := hv.shown_eq_error hshown
        exact ⟨rfl, n, rfl, hn⟩
    | .raised (.parse failure), hescapes =>
      obtain ⟨rendering, hrender⟩ := h.exists_render hlen hout
      rw [Outcome.EscapesWith, hrender] at hescapes
      cases hescapes
  · rintro ⟨rfl, n, hout, hn⟩
    rw [hout, Outcome.EscapesWith, Value.shownAll_singleton, Value.shown,
      Number.showInt_of_not_isWritable hn]
    rfl

end Arithmetic

/-- **When the report accords with the outcome.** With logging not configured nothing is written
but the report. It accords with the outcome of the parse exactly if the outcome can be told; if
not, the fault that keeps it from being told leaves the program. For the calculator, on a text
whose offsets can be written, this is one case only: the value of the text is an integer with
too many digits to be shown. -/
theorem Session.report_accords_iff (s : Session) (hlog : s.journal.enabled = false) (fuel : Nat)
    (r : Rule) (text : List Char) :
    (s.report fuel r text).2.journal = s.journal ∧
      ((s.report fuel r text).1.AccordsWith (s.parse fuel r text).1 ↔
        ¬ ∃ f, (s.parse fuel r text).1.EscapesWith f) ∧
      (∀ f, (s.report fuel r text).1.ending = .escaped f ↔
        (s.parse fuel r text).1.EscapesWith f) ∧
      ∀ s₀, Grammar.calculator s₀ = (.ok r, s) → text.length + 1 < 10 ^ digitLimit →
        ((s.report fuel r text).1.AccordsWith (s.parse fuel r text).1 ↔
          ¬ ∃ n, (s.parse fuel r text).1 = .value [.int n] ∧ Number.isWritable n = false) := by
  have hreport : (s.report fuel r text).1 = .ofOutcome (s.parse fuel r text).1 := rfl
  have haccords := Report.accordsWith_iff (s.parse fuel r text).1
  refine ⟨parse_of_disabled hlog fuel r text, haccords, Report.escaped_iff _, ?_⟩
  intro s₀ hbuild hlen
  obtain ⟨r', s', hbuild', -, hcalculator⟩ := Arithmetic.calculator_builds s₀
  rw [hbuild] at hbuild'
  cases hbuild'
  rw [hreport, haccords]
  simp only [hcalculator.escapesWith_iff hlen, exists_eq_left]

namespace Arithmetic

/-- A session in which the calculator has been built, and its parse of a sentence. -/
theorem calculator_parses (s₀ : Session) (htrace : s₀.journal.trace = false) {text : List Char}
    {sentence : Sentence text} {v : Value} (hv : sentence.tree.value = .ok v) :
    ∃ r s fuel, Grammar.calculator s₀ = (.ok r, s) ∧ s.journal = s₀.journal ∧
      (s.parse fuel r text).1 = .value [v] := by
  obtain ⟨r, s, hbuild, hjournal, hr⟩ := calculator_builds s₀
  obtain ⟨fuel, hparse⟩ := (hr.parse_endsWith (by rw [hjournal, htrace]) sentence).exists_run
  rw [hv] at hparse
  exact ⟨r, s, fuel, hbuild, hjournal, hparse⟩

/-- A number in a text, as a factor. -/
def factor (digits : Numeral) : Tree .factor := .number ⟨[], by decide⟩ digits

/-- A factor as an expression. -/
def single (digits : Numeral) : Tree (.chain .sum) :=
  .chain (l := .sum) (.chain (l := .product) (factor digits) .nil) .nil

/-- The number seven, as it is written. -/
def seven : Numeral :=
  ⟨['7'], .inl ⟨by simp, by simpa using (by decide : Pattern.isDigit '7' = true)⟩⟩

/-- The calculator shows seven. -/
theorem report_accords_iff_seven :
    ∃ r s fuel, Grammar.calculator (Session.new (Journal.new false "WARNING")) = (.ok r, s) ∧
      s.journal.enabled = false ∧ (s.parse fuel r ['7']).1 = .value [.int 7] ∧
        (s.report fuel r ['7']).1.AccordsWith (s.parse fuel r ['7']).1 := by
  let sentence : Sentence ['7'] := ⟨single seven, ⟨[], by decide⟩, rfl⟩
  have hvalue : sentence.tree.value = .ok (.int 7) := rfl
  obtain ⟨r, s, fuel, hbuild, hjournal, hparse⟩ :=
    calculator_parses (Session.new (Journal.new false "WARNING")) rfl hvalue
  have hlog : s.journal.enabled = false := by rw [hjournal]; rfl
  refine ⟨r, s, fuel, hbuild, hlog, hparse, ?_⟩
  have hshort : ['7'].length + 1 < 10 ^ digitLimit :=
    Nat.lt_of_lt_of_le (by decide : 2 < 10 ^ 1) (Nat.pow_le_pow_right (by decide) (by decide))
  refine ((Session.report_accords_iff s hlog fuel r ['7']).2.2.2 _ hbuild hshort).mpr ?_
  rintro ⟨n, hn, hwide⟩
  rw [hparse] at hn
  cases hn
  exact absurd hwide (by decide)

theorem isDecimalDigit_of_mem_replicate {n : Nat} {c : Char} (hc : c ∈ List.replicate n '9') :
    Text.isDecimalDigit c = true := by
  rw [List.eq_of_mem_replicate hc]
  decide

/-- Nines, `n + 1` of them. -/
def nines (n : Nat) : Numeral :=
  ⟨List.replicate (n + 1) '9', .inl ⟨by simp, fun _ hc =>
    Pattern.isDigit_of_isDecimalDigit (isDecimalDigit_of_mem_replicate hc)⟩⟩

theorem le_ofDigits_replicate (n : Nat) : 10 ^ n ≤ Number.ofDigits (List.replicate (n + 1) 9) := by
  induction n with
  | zero => decide
  | succ n ih =>
    rw [List.replicate_succ]
    show 10 ^ (n + 1) ≤ Number.ofDigits (List.replicate (n + 1) 9) * 10 + 9
    rw [Nat.pow_succ]
    omega

theorem nines_value {n : Nat} (hn : n < digitLimit) :
    ∃ a : Nat, (nines n).value = .ok (.int a) ∧ 10 ^ n ≤ a := by
  have hpoint : '.' ∉ List.replicate (n + 1) '9' := by simp
  have hnine : Text.digitValue? '9' = some 9 := by decide
  have hvalues : (Number.digitValues (List.replicate (n + 1) '9')).reverse =
      List.replicate (n + 1) 9 := by
    rw [Number.digitValues, List.filterMap_replicate_of_some hnine, List.reverse_replicate]
  refine ⟨Number.ofDigits (List.replicate (n + 1) 9), ?_, le_ofDigits_replicate n⟩
  unfold Numeral.value nines
  rw [if_neg hpoint, Number.readInt_digits (by simp) fun _ => isDecimalDigit_of_mem_replicate,
    if_neg (by rw [List.length_replicate]; omega), hvalues]
  rfl

/-- The square of a number of more than half as many digits as can be written cannot. -/
theorem not_isWritable_square {a n : Nat} (ha : 10 ^ n ≤ a) (hn : digitLimit ≤ n + n) :
    Number.isWritable ((a : Int) * a) = false := by
  have hsquare : 10 ^ digitLimit ≤ a * a :=
    calc 10 ^ digitLimit ≤ 10 ^ (n + n) := Nat.pow_le_pow_right (by decide) hn
      _ = 10 ^ n * 10 ^ n := Nat.pow_add ..
      _ ≤ a * a := Nat.mul_le_mul ha ha
  rw [Bool.eq_false_iff, ne_eq, Number.isWritable_iff, ← Int.natCast_mul, Int.natAbs_natCast]
  exact Nat.not_lt.mpr hsquare

/-- A number times itself. -/
def square (digits : Numeral) : Tree (.chain .sum) :=
  .chain (l := .sum) (.chain (l := .product) (factor digits)
    (.cons ⟨[], by decide⟩ .times (factor digits) .nil)) .nil

theorem square_text (digits : Numeral) :
    (square digits).text = digits.val ++ '*' :: digits.val := by
  simp [square, factor, Tree.text, Others.text, Operator.sign]

theorem square_value {digits : Numeral} {a : Nat} (h : digits.value = .ok (.int a)) :
    (square digits).value = .ok (.int (a * a)) := by
  have hfactor : (factor digits).value = .ok (.int a) := by
    rw [factor, Tree.value, h]
  have hnil {l : Level} : (Others.nil : Others l).values = .ok [] := by rw [Others.values]
  have hothers := Others.values_cons_ok ⟨[], by decide⟩ Operator.times hfactor hnil
  have hproduct := Tree.value_chain (l := .product) hfactor hothers
  rw [square, Tree.value_chain (l := .sum) hproduct hnil]
  rfl

/-- The square of a number of 2200 nines. -/
def squareOfNines : List Char := (nines 2199).val ++ '*' :: (nines 2199).val

/-- **Not every report accords with its outcome.** The calculator finds the square of a number of
2200 nines, and the program ends with a fault all the same. -/
theorem report_escapes_squareOfNines :
    ∃ r s fuel, Grammar.calculator (Session.new (Journal.new false "WARNING")) = (.ok r, s) ∧
      s.journal.enabled = false ∧ (∃ tokens, (s.parse fuel r squareOfNines).1 = .value tokens) ∧
      (s.report fuel r squareOfNines).1.ending = .escaped (.value .tooManyDigitsToShow) ∧
      ¬ (s.report fuel r squareOfNines).1.AccordsWith (s.parse fuel r squareOfNines).1 := by
  obtain ⟨a, ha, hlarge⟩ := nines_value (n := 2199) (by decide)
  let sentence : Sentence squareOfNines :=
    ⟨square (nines 2199), ⟨[], by decide⟩, by rw [List.append_nil, square_text, squareOfNines]⟩
  have hvalue : sentence.tree.value = .ok (.int (a * a)) := square_value ha
  obtain ⟨r, s, fuel, hbuild, hjournal, hparse⟩ :=
    calculator_parses (Session.new (Journal.new false "WARNING")) rfl hvalue
  have hlog : s.journal.enabled = false := by rw [hjournal]; rfl
  have hescapes : (s.parse fuel r squareOfNines).1.EscapesWith (.value .tooManyDigitsToShow) := by
    rw [hparse]
    show Value.shownAll [.int (a * a)] = _
    rw [Value.shownAll_singleton, Value.shown,
      Number.showInt_of_not_isWritable (not_isWritable_square hlarge (by decide))]
    rfl
  have hended := (Report.escaped_iff _ _).mpr hescapes
  exact ⟨r, s, fuel, hbuild, hlog, ⟨_, hparse⟩, hended, fun haccords => haccords.ending_ne _ hended⟩

end Arithmetic

end LeafGrammar
