import LeafGrammar.Grammar.Catalogue
import LeafGrammar.Proofs.Grammar.Legibility
import LeafGrammar.Proofs.Grammar.Nested

/-!
# Balanced nests

The language of nested digits, without the rule: some levels open one after the other, each with a
parenthesis and a digit, and then as many parentheses close. White space may stand before each of
these characters, and none after the last (`Nest`). A nest is empty or has a nest inside, and so the
proofs go by induction on it (`Nest.rec_around`).

The rule reads every nest in front of a text where no other level opens, and what it reads is a
nest. A level that opens and does not close is given up as a whole: the rule then reads the empty
nest, and the level around it, which needs a closing parenthesis there, is given up as well. So a
text that is no nest is left over as a whole (`nestedDigits_parses_nests`).
-/

namespace LeafGrammar.Nests

open Grammar

/-! ### Nests -/

/-- A digit as it is written. -/
abbrev Digit := { c : Char // Pattern.isDigit c = true }

/-- How a level opens: a parenthesis and a digit, each behind white space. -/
structure Opening where
  before : Blanks
  between : Blanks
  digit : Digit

def Opening.text (o : Opening) : List Char :=
  o.before.val ++ ['('] ++ (o.between.val ++ [o.digit.val])

/-- How a level closes: a parenthesis behind white space. -/
def closing (before : Blanks) : List Char := before.val ++ [')']

/-- Levels that open, and as many that close. -/
structure Nest where
  openings : List Opening
  closings : List Blanks
  balanced : closings.length = openings.length

namespace Nest

def text (n : Nest) : List Char := n.openings.flatMap Opening.text ++ n.closings.flatMap closing

/-- The digits, from the outermost level to the innermost. -/
def digits (n : Nest) : List Digit := n.openings.map (·.digit)

/-- The digits as tokens. -/
def tokens (n : Nest) : List Value := n.digits.map fun d => .text (String.ofList [d.val])

/-- No level at all. -/
def nothing : Nest := ⟨[], [], rfl⟩

/-- One more level around a nest. -/
def around (o : Opening) (inside : Nest) (b : Blanks) : Nest :=
  ⟨o :: inside.openings, inside.closings ++ [b], by simp [inside.balanced]⟩

theorem text_around (o : Opening) (inside : Nest) (b : Blanks) :
    (around o inside b).text = o.text ++ (inside.text ++ closing b) := by
  simp [around, text]

theorem tokens_around (o : Opening) (inside : Nest) (b : Blanks) :
    (around o inside b).tokens = tokenOf [o.digit.val] ++ inside.tokens := rfl

/-- Every nest is made level by level: the first one that opens is the last one that closes. -/
@[elab_as_elim]
theorem rec_around {P : Nest → Prop} (nothing : P nothing)
    (around : ∀ o inside b, P inside → P (around o inside b)) (n : Nest) : P n := by
  obtain ⟨openings, closings, h⟩ := n
  induction openings generalizing closings with
  | nil =>
    obtain rfl := List.length_eq_zero_iff.mp h
    exact nothing
  | cons o openings ih =>
    rcases List.eq_nil_or_concat' closings with rfl | ⟨init, b, rfl⟩
    · cases h
    · have hinit : init.length = openings.length := by simpa using h
      exact around o ⟨openings, init, hinit⟩ b (ih init hinit)

end Nest

/-! ### Every nest is found -/

variable {slots : Slots} {text : List Char} {n opened digit : Node}

/-- The opening of a level is read. -/
theorem derives_opening (hopened : IsSymbol (punctuation "\\(" '(') opened)
    (hdigit : IsLexeme digitPattern digit) (m : NodeId) (o : Opening) {k : Nat} {u : List Char}
    (htext : text.drop k = o.text ++ u) :
    Derives slots text (.node (.seq m opened digit) (.num k))
      (.ok (.success (tokenOf [o.digit.val]) (.num (k + o.text.length : Nat)))) := by
  have hparen : text.drop k = o.before.val ++ ['('] ++ (o.between.val ++ ([o.digit.val] ++ u)) := by
    rw [htext, Opening.text]
    simp
  have hread : Derives slots text _ _ := (hopened.scans openingParenthesis_isToken).reads
    (by rw [hparen, List.append_assoc]) o.before.2 rfl fun _ _ => rfl
  have hread' : Derives slots text _ _ := (hdigit.scans digit_isToken).reads
    (drop_add_length hparen) o.between.2 ⟨_, o.digit.2, rfl⟩ fun _ _ => rfl
  have hboth : Derives slots text (.node (.seq m opened digit) (.num k)) _ := .seq hread hread'
  rw [Nat.add_assoc, ← List.length_append] at hboth
  exact hboth

/-- Where a level may close none opens. -/
theorem opening_fails (hopened : IsSymbol (punctuation "\\(" '(') opened) (m : NodeId) {k : Nat}
    (hu : FollowedBy [')'] (text.drop k)) :
    ∃ q c, Derives slots text (.node (.seq m opened digit) (.num k)) (.ok (.failure q c)) := by
  obtain ⟨q, c, hno⟩ := (hopened.scans openingParenthesis_isToken).fails_of_followedBy hu
    (List.forall_mem_singleton.mpr (by decide)) (by
      rintro w rfl
      exact ⟨'(', [], rfl, by decide⟩)
  exact ⟨q, c, .seqStop hno trivial⟩

/-- **A nest is found**, in front of a text where a level may close. -/
theorem IsNested.derives (h : IsNested slots n) (nest : Nest) :
    ∀ {k : Nat} {u : List Char}, text.drop k = nest.text ++ u → FollowedBy [')'] u →
      Derives slots text (.node n (.num k))
        (.ok (.success nest.tokens (.num (k + nest.text.length : Nat)))) := by
  obtain ⟨i, j, l, m, o, hopened, hdigit, hclosed, hfilled⟩ := h
  induction nest using Nest.rec_around with
  | nothing =>
    intro k u htext hu
    rw [← List.nil_append u, ← show Nest.nothing.text = [] from rfl, ← htext] at hu
    obtain ⟨q, c, hno⟩ := opening_fails hopened m hu
    exact .choiceRight (.seqStop (.spliceStop hno trivial) trivial) .empty
  | around o inside b ih =>
    intro k u htext hu
    rw [Nest.text_around, List.append_assoc, List.append_assoc] at htext
    have hinside : text.drop (k + o.text.length) = inside.text ++ (closing b ++ u) :=
      drop_add_length htext
    have hclosing : text.drop (k + o.text.length + inside.text.length) =
        b.val ++ ([')'] ++ u) := by
      rw [drop_add_length hinside, closing, List.append_assoc]
    have hfollowed : FollowedBy [')'] (closing b ++ u) := by
      rw [closing, List.append_assoc]
      exact .token b (by simp) u
    have hclose : Derives slots text _ _ :=
      (hclosed.scans closingParenthesis_isToken).reads hclosing b.2 rfl fun _ _ => rfl
    have hlevel : Derives slots text (.node (.seq j (.splice l (.seq m _ _) _) _) (.num k)) _ :=
      .seq (.splice (derives_opening hopened hdigit m o htext) hfilled (ih hinside hfollowed)) hclose
    have hend : k + o.text.length + inside.text.length + (b.val ++ [')']).length =
        k + (Nest.around o inside b).text.length := by
      simp only [Nest.text_around, closing, List.length_append]
      omega
    rw [hend, Finish.after_success, List.append_nil, ← Nest.tokens_around o inside b] at hlevel
    exact .choiceLeft hlevel id

/-! ### Nothing else is found -/

/-- A success that has read a piece of the text with this property and has made these tokens. -/
def HasRead {α : Type} (text : List Char) (k : Nat) (written : α → List Char)
    (made : α → List Value) : Finish → Prop :=
  Finish.Meets (fun tokens q => ∃ a, written a <+: text.drop k ∧ tokens = made a ∧
    q = .num (k + (written a).length : Nat)) True fun _ => False

theorem answers_opening (hopened : IsSymbol (punctuation "\\(" '(') opened)
    (hdigit : IsLexeme digitPattern digit) (m : NodeId) (k : Nat) :
    Answers slots text (.seq m opened digit) (.num k)
      (HasRead text k Opening.text fun o => tokenOf [o.digit.val]) := by
  refine .seq (((hopened.scans openingParenthesis_isToken).answers k).imp fun e he => ?_)
  rcases e with f | ⟨tokens, q⟩ | ⟨q, c⟩
  · exact he.elim
  · obtain ⟨b, w, hb, rfl, hparen, rfl, rfl⟩ := he
    refine ((hdigit.scans digit_isToken).answers _).imp fun e he => ?_
    rcases e with f | ⟨tokens, q⟩ | ⟨q, c⟩
    · exact he.elim
    · obtain ⟨b', w, hb', ⟨d, hd, rfl⟩, hdigit, rfl, rfl⟩ := he
      refine ⟨⟨⟨b, hb⟩, ⟨b', hb'⟩, ⟨d, hd⟩⟩, prefix_append hparen hdigit, rfl, ?_⟩
      rw [Nat.add_assoc, ← List.length_append, Opening.text]
    · trivial
  · exact fun _ _ => trivial

/-- **The rule ends everywhere, and reads nests only.** By what is left of the text: the rule comes
back to itself behind an opening. -/
theorem IsNested.answers (h : IsNested slots n) (text : List Char) :
    ∀ left k : Nat, text.length - k ≤ left →
      Answers slots text n (.num k) (HasRead text k Nest.text Nest.tokens) := by
  obtain ⟨i, j, l, m, o, hopened, hdigit, hclosed, hfilled⟩ := h
  intro left
  induction left using Nat.strongRecOn with
  | ind left ih =>
    intro k hk
    have hnothing : Answers slots text (.empty o) (.num k)
        (HasRead text k Nest.text Nest.tokens) :=
      ⟨_, .empty, .nothing, List.nil_prefix, rfl, rfl⟩
    refine .choice (.seq (.splice hfilled
      ((answers_opening hopened hdigit m k).imp fun e he => ?_))) hnothing
    rcases e with f | ⟨tokens, q⟩ | ⟨q, c⟩
    · exact he.elim
    · obtain ⟨o, ho, rfl, rfl⟩ := he
      have hne : o.text ≠ [] := by simp [Opening.text]
      have hle := add_length_le_length ho hne
      have hpos := List.length_pos_iff.mpr hne
      refine (ih (text.length - (k + o.text.length)) (by omega) _ (Nat.le_refl _)).imp fun e he => ?_
      rcases e with f | ⟨tokens, q⟩ | ⟨q, c⟩
      · exact he.elim
      · obtain ⟨inside, hinside, rfl, rfl⟩ := he
        refine ((hclosed.scans closingParenthesis_isToken).answers _).imp fun e he => ?_
        rcases e with f | ⟨tokens, q⟩ | ⟨q, c⟩
        · exact he.elim
        · obtain ⟨b, w, hb, rfl, hclose, rfl, rfl⟩ := he
          have hread := prefix_append ho (prefix_append hinside hclose)
          refine ⟨.around o inside ⟨b, hb⟩, ?_, ?_, ?_⟩
          · rw [Nest.text_around]
            exact hread
          · rw [Nest.tokens_around, List.append_nil]
          · simp only [Nest.text_around, closing, List.length_append, Nat.add_assoc]
        · trivial
      · exact fun _ _ => trivial
    · exact fun _ _ _ _ => trivial

/-! ### The whole text -/

theorem IsNested.label_eq (h : IsNested slots n) : n.label = .ok "or" := by
  cases h
  rfl

/-- The only injection point is the one behind the digit, and the rule stands in its slot. -/
theorem IsNested.exists_slot (h : IsNested slots n) :
    ∃ slot, slots.target? slot = some n ∧ ∀ x ∈ n.points, x = slot := by
  obtain ⟨i, j, l, m, o, hopened, hdigit, hclosed, hfilled⟩ := h
  refine ⟨_, hfilled, ?_⟩
  simp [Node.points, hopened.points_eq, hdigit.points_eq, hclosed.points_eq]

theorem IsNested.resolved (h : IsNested slots n) : n.Resolved slots := by
  obtain ⟨slot, hfilled, hpoints⟩ := h.exists_slot
  refine Node.resolved_of_points (P := (· = slot)) ?_ hpoints
  rintro _ rfl
  exact ⟨n, hfilled, hpoints⟩

theorem IsNested.isLegible (h : IsNested slots n) : ∀ x ∈ n.pieces, x.IsLegible := by
  obtain ⟨i, j, l, m, o, hopened, hdigit, hclosed, -⟩ := h
  simp only [Node.pieces, List.forall_mem_cons, List.forall_mem_append]
  exact ⟨trivial, ⟨trivial, ⟨trivial, trivial, hopened.isLegible, hdigit.isLegible⟩,
    hclosed.isLegible⟩, trivial, List.forall_mem_nil _⟩

/-- **The rule for nested digits is legible.** -/
theorem IsNested.legible (h : IsNested slots n) : n.Legible slots := by
  obtain ⟨slot, hfilled, hpoints⟩ := h.exists_slot
  refine .of_pieces (S := (· = slot)) ?_ hpoints h.isLegible
  rintro _ target rfl htarget
  rw [hfilled] at htarget
  cases htarget
  exact ⟨hpoints, h.isLegible⟩

/-- What parsing gives for a text: the tokens of the nest that it is, or a parse failure. -/
theorem nestedDigits_endsWith {s : Session} {text : List Char}
    (hs : s.journal.trace = false ∨ Number.isWritable text.length = true) :
    (∀ nest : Nest, nest.text = text →
        EndsWith (fun fuel => (Bundled.nested.parse fuel s text).1) (.ok nest.tokens)) ∧
      ((¬ ∃ nest : Nest, nest.text = text) → ∃ failure,
        EndsWith (fun fuel => (Bundled.nested.parse fuel s text).1) (.error (.parse failure))) := by
  obtain ⟨r, s', hbuild, hjournal, hr⟩ := nestedDigits_builds s
  have hparse (fuel : Nat) : Bundled.nested.parse fuel s text = s'.parse fuel r text := by
    show parseWith fuel (nestedDigits s) text = _
    rw [hbuild]
    rfl
  have hfree : s'.RunsFreely text r.node := by
    rcases hs with hs | hs
    · exact .of_not_trace (by rw [hjournal, hs])
    · exact fun j _ fuel => hr.legible.evaluateIn_eq hs fuel j
  have hends {e : Finish} (hd : Derives s'.slots text (.node r.node (.num 0)) e) :
      EndsWith (fun fuel => (Bundled.nested.parse fuel s text).1)
        (e >>= Session.conclusion text) := by
    simp only [hparse]
    exact Session.parse_endsWith hfree hr.label_eq hr.resolved hd
  constructor
  · rintro nest rfl
    have hd := hr.derives nest (k := 0) (u := []) (List.append_nil _).symm
      (FollowedBy.blanks ⟨[], by decide⟩)
    rw [Nat.zero_add] at hd
    have hall : Session.conclusion nest.text (.success nest.tokens (.num nest.text.length)) =
        .ok nest.tokens := Session.conclusion_success rfl
    simpa only [bind, Except.bind, hall] using hends hd
  · intro hno
    obtain ⟨e, hd, hread⟩ := hr.answers text text.length 0 (Nat.le_refl _)
    have hend := hends hd
    rcases e with f | result
    · exact hread.elim
    · rcases Session.conclusion_cases text result with ⟨tokens, q, rfl, hq⟩ | ⟨failure, hfailure⟩
      · -- a nest that ends where the text does is the text
        obtain ⟨nest, hprefix, -, rfl⟩ := hread
        rw [List.drop_zero] at hprefix
        refine absurd ⟨nest, hprefix.eq_of_length ?_⟩ hno
        simp only [Integral.toInt_num] at hq
        omega
      · simp only [bind, Except.bind, hfailure] at hend
        exact ⟨failure, hend⟩

/-- **The rule accepts exactly the balanced nests.** Parsing ends with tokens exactly if the text
is a nest, and they are its digits in order; on any other text it ends with a parse failure; and it
raises nothing else. A trace does not change this on a text whose length can be written. -/
theorem nestedDigits_parses_nests (s : Session) (text : List Char)
    (hs : s.journal.trace = false ∨ Number.isWritable text.length = true) :
    (∀ tokens, EndsWith (fun fuel => (Bundled.nested.parse fuel s text).1) (.ok tokens) ↔
        ∃ nest : Nest, nest.text = text ∧ nest.tokens = tokens) ∧
      ((¬ ∃ nest : Nest, nest.text = text) → ∃ failure,
        EndsWith (fun fuel => (Bundled.nested.parse fuel s text).1) (.error (.parse failure))) ∧
      ∀ fuel f, (Bundled.nested.parse fuel s text).1 = .raised f → ∃ failure, f = .parse failure := by
  obtain ⟨hnest, hno⟩ := nestedDigits_endsWith hs
  refine ⟨fun tokens => ⟨fun hend => ?_, ?_⟩, hno, fun fuel f hf => ?_⟩
  · obtain ⟨fuel, hrun⟩ := hend.exists_run
    by_cases hexists : ∃ nest : Nest, nest.text = text
    · obtain ⟨nest, htext⟩ := hexists
      exact ⟨nest, htext, (Except.ok.inj ((hnest nest htext).eq_of_run hrun)).symm⟩
    · obtain ⟨failure, hfailure⟩ := hno hexists
      cases hfailure.eq_of_run hrun
  · rintro ⟨nest, htext, rfl⟩
    exact hnest nest htext
  · have hrun : (Bundled.nested.parse fuel s text).1 = .ofExcept (.error f) := hf
    by_cases hexists : ∃ nest : Nest, nest.text = text
    · obtain ⟨nest, htext⟩ := hexists
      cases (hnest nest htext).eq_of_run hrun
    · obtain ⟨failure, hfailure⟩ := hno hexists
      exact ⟨failure, Except.error.inj (hfailure.eq_of_run hrun)⟩

/-- The text `( 1(2) )` is a nest of two levels, and a trace does not change that. -/
theorem nestedDigits_parses_nests_twoLevels :
    Number.isWritable ("( 1(2) )".toList.length : Nat) = true ∧
      EndsWith (fun fuel => (Bundled.nested.parse fuel (Session.new (Journal.new true "TRACE"))
        "( 1(2) )".toList).1) (.ok [.text "1", .text "2"]) := by
  let none : Blanks := ⟨[], by decide⟩
  let blank : Blanks := ⟨[' '], by decide⟩
  let nest : Nest := .around ⟨none, blank, '1', by decide⟩
    (.around ⟨none, none, '2', by decide⟩ .nothing none) blank
  exact ⟨rfl, ((nestedDigits_parses_nests _ _ (.inr rfl)).1 _).mpr ⟨nest, rfl, rfl⟩⟩

end LeafGrammar.Nests
