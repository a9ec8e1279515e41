import LeafGrammar.Proofs.Engine.Algebra
import LeafGrammar.Proofs.Session.Calls

/-!
# The laws of the combinators

Two ways to build a rule are alike if they are refused alike, or give rules that run alike: on every
text and from every offset, down to failures, faults and endless runs (`Build.Alike`). Sequences and
choices are associative, the empty rule is neutral for sequences, a sequence distributes over a
choice behind it, an action over a choice, and dropping tokens over everything. An optional rule is
a choice, and an injection point is a sequence (`Build.combinator_laws`).

A step that builds a rule is known by what the rule means (`Build.Means`), so a law for the steps is
a law for meanings, whatever the numbers of the nodes are.
-/

namespace LeafGrammar

namespace Build

variable {α β : Type}

/-! ### Bounds -/

/-- The step neither looks at the session nor changes it. -/
def IsCalculation (b : Build α) : Prop := ∃ x, ∀ s, b s = (x, s)

namespace IsCalculation

theorem lift (x : Except Fault α) : IsCalculation (liftM x : Build α) := ⟨x, run_lift x⟩

theorem pure (a : α) : IsCalculation (Pure.pure a : Build α) := ⟨.ok a, fun _ => rfl⟩

theorem refuse (cause : GrammarFault) : IsCalculation (Build.refuse cause : Build α) :=
  ⟨.error (.grammar cause), fun _ => rfl⟩

theorem bind {b : Build α} {f : α → Build β} (hb : IsCalculation b)
    (hf : ∀ a, IsCalculation (f a)) : IsCalculation (b >>= f) := by
  obtain ⟨x, hx⟩ := hb
  cases x with
  | error e => exact ⟨.error e, fun s => by rw [run_bind, hx]⟩
  | ok a =>
    obtain ⟨y, hy⟩ := hf a
    exact ⟨y, fun s => by rw [run_bind_ok (hx s), hy]⟩

end IsCalculation

theorem leastOf_isCalculation (v : Value) : IsCalculation (leastOf v) := by
  refine (IsCalculation.lift v.shown).bind fun shown => ?_
  split
  · split
    · exact .pure _
    · exact .refuse _
  · exact .refuse _

theorem mostOf_isCalculation (least : Integral) (v : Value) : IsCalculation (mostOf least v) := by
  refine (IsCalculation.lift least.shown).bind fun low => ?_
  refine (IsCalculation.lift v.shown).bind fun shown => ?_
  split
  · exact .pure _
  · split
    · exact .pure _
    · exact .refuse _
  · exact .refuse _

/-- Whether bounds are refused does not hang on the rule that they are given for. -/
theorem rep_cases (least most : Value) :
    (∃ f, ∀ r s, rep r least most s = (.error f, s)) ∨
      ∃ low high, ∀ r, rep r least most = derive r (.rep · r.node low high) := by
  obtain ⟨x, hleast⟩ := leastOf_isCalculation least
  cases x with
  | error f => exact .inl ⟨f, fun r s => by rw [rep, run_bind, hleast]⟩
  | ok low =>
    obtain ⟨y, hmost⟩ := mostOf_isCalculation low most
    cases y with
    | error f => exact .inl ⟨f, fun r s => by rw [rep, run_bind_ok (hleast s), run_bind, hmost]⟩
    | ok high =>
      refine .inr ⟨low, high, fun r => funext fun s => ?_⟩
      rw [rep, run_bind_ok (hleast s), run_bind_ok (hmost s)]

end Build

/-! ### What is built -/

variable {slots : Slots} {M N : List Char → Meaning}

/-- The rule means this on each text, in the slots. -/
def Rule.HasMeaning (slots : Slots) (r : Rule) (M : List Char → Meaning) : Prop :=
  ∀ text, r.node.meaning slots text = M text

theorem Rule.hasMeaning (r : Rule) : r.HasMeaning slots (r.node.meaning slots) := fun _ => rfl

namespace Build

/-- In every session the step gives a rule that means this. -/
def Means (slots : Slots) (x : Build Rule) (M : List Char → Meaning) : Prop :=
  ∀ s, ∃ r s', x s = (.ok r, s') ∧ r.HasMeaning slots M

namespace Means

variable {a b : Rule}

theorem derive (r : Rule) {n : NodeId → Node}
    (h : ∀ id text, (n id).meaning slots text = M text) : Means slots (Build.derive r n) M :=
  fun _ => ⟨_, _, rfl, h _⟩

theorem pure (ha : a.HasMeaning slots M) : Means slots (Pure.pure a) M := fun s => ⟨a, s, rfl, ha⟩

theorem empty : Means slots Build.empty fun _ => .empty :=
  fun _ => ⟨_, _, rfl, fun _ => Node.meaning_empty _⟩

theorem bind {x : Build Rule} {f : Rule → Build Rule} (hx : Means slots x M)
    (hf : ∀ r, r.HasMeaning slots M → Means slots (f r) N) : Means slots (x >>= f) N := by
  intro s
  obtain ⟨r, s₁, hrun, hr⟩ := hx s
  obtain ⟨r', s₂, hrun', hr'⟩ := hf r hr s₁
  exact ⟨r', s₂, by rw [run_bind_ok hrun, hrun'], hr'⟩

theorem andThen (ha : a.HasMeaning slots M) (hb : b.HasMeaning slots N) :
    Means slots (Build.andThen a (.rule b)) fun text => (M text).seq (N text) :=
  derive a (n := (.seq · a.node b.node)) fun id text => by rw [Node.meaning_seq, ha, hb]

theorem orElse (ha : a.HasMeaning slots M) (hb : b.HasMeaning slots N) :
    Means slots (Build.orElse a (.rule b)) fun text => (M text).choice (N text) :=
  derive a (n := (.choice · a.node b.node)) fun id text => by rw [Node.meaning_choice, ha, hb]

theorem map (ha : a.HasMeaning slots M) (f : Action) :
    Means slots (Build.map a (.action f)) fun text => (M text).map f :=
  derive a (n := (.map · a.node f)) fun id text => by rw [Node.meaning_map, ha]

theorem rep (a : Rule) (low : Integral) (high : Option Integral) :
    Means slots (Build.derive a (.rep · a.node low high))
      ((Node.rep 0 a.node low high).meaning slots) :=
  derive a fun id _ => Node.meaning_rep_renumber id 0 a.node low high

theorem dropTokens (ha : a.HasMeaning slots M) :
    Means slots (Build.dropTokens a) fun text => (M text).hush :=
  derive a (n := (.map · a.node discard)) fun id text => by
    rw [Node.meaning_map, Meaning.map_discard, ha]

end Means

/-! ### Laws -/

/-- The two ways of building, one after the other in any session, are refused with the same fault or
give rules that run alike in the slots. -/
def Alike (slots : Slots) (x y : Build Rule) : Prop :=
  ∀ s : Session,
    (∃ f s₁ s₂, x s = (.error f, s₁) ∧ y s₁ = (.error f, s₂)) ∨
      ∃ r r' s₁ s₂, x s = (.ok r, s₁) ∧ y s₁ = (.ok r', s₂) ∧ r.node.RunsLike slots r'.node

theorem Alike.of_means {x y : Build Rule} (hx : Means slots x M) (hy : Means slots y N)
    (h : ∀ text, (M text).numbered = (N text).numbered) : Alike slots x y := by
  intro s
  obtain ⟨r, s₁, hrun, hr⟩ := hx s
  obtain ⟨r', s₂, hrun', hr'⟩ := hy s₁
  exact .inr ⟨r, r', s₁, s₂, hrun, hrun', .of_meaning fun text => by rw [hr, hr', h]⟩

theorem Alike.of_means_eq {x y : Build Rule} (hx : Means slots x M) (hy : Means slots y N)
    (h : ∀ text, M text = N text) : Alike slots x y :=
  .of_means hx hy fun text => by rw [h]

variable (a b c : Rule)

theorem andThen_assoc :
    Alike slots (do andThen (← andThen a (.rule b)) (.rule c))
      (do andThen a (.rule (← andThen b (.rule c)))) :=
  .of_means_eq ((Means.andThen a.hasMeaning b.hasMeaning).bind fun _ hab => .andThen hab c.hasMeaning)
    ((Means.andThen b.hasMeaning c.hasMeaning).bind fun _ hbc => .andThen a.hasMeaning hbc)
    fun _ => Meaning.seq_assoc ..

theorem orElse_assoc :
    Alike slots (do orElse (← orElse a (.rule b)) (.rule c))
      (do orElse a (.rule (← orElse b (.rule c)))) :=
  .of_means_eq ((Means.orElse a.hasMeaning b.hasMeaning).bind fun _ hab => .orElse hab c.hasMeaning)
    ((Means.orElse b.hasMeaning c.hasMeaning).bind fun _ hbc => .orElse a.hasMeaning hbc)
    fun _ => Meaning.choice_assoc ..

theorem empty_andThen : Alike slots (do andThen (← empty) (.rule a)) (pure a) :=
  .of_means_eq (Means.empty.bind fun _ he => .andThen he a.hasMeaning) (.pure a.hasMeaning)
    fun _ => Meaning.empty_seq _

theorem andThen_empty : Alike slots (do andThen a (.rule (← empty))) (pure a) :=
  .of_means_eq (Means.empty.bind fun _ he => .andThen a.hasMeaning he) (.pure a.hasMeaning)
    fun _ => Meaning.seq_empty _

/-- On the second side the rule in front is built once and run twice. -/
theorem andThen_orElse :
    Alike slots (do andThen a (.rule (← orElse b (.rule c))))
      (do orElse (← andThen a (.rule b)) (.rule (← andThen a (.rule c)))) :=
  .of_means_eq ((Means.orElse b.hasMeaning c.hasMeaning).bind fun _ hbc => .andThen a.hasMeaning hbc)
    ((Means.andThen a.hasMeaning b.hasMeaning).bind fun _ hab =>
      (Means.andThen a.hasMeaning c.hasMeaning).bind fun _ hac => .orElse hab hac)
    fun _ => Meaning.seq_choice ..

/-- What is no action is refused on both sides. -/
theorem map_orElse (f : Mapper) :
    Alike slots (do map (← orElse a (.rule b)) f) (do orElse (← map a f) (.rule (← map b f))) := by
  cases f with
  | value v => exact fun s => .inl ⟨_, _, _, rfl, rfl⟩
  | action f =>
    exact .of_means_eq ((Means.orElse a.hasMeaning b.hasMeaning).bind fun _ hab => .map hab f)
      ((Means.map a.hasMeaning f).bind fun _ hleft =>
        (Means.map b.hasMeaning f).bind fun _ hright => .orElse hleft hright)
      fun _ => Meaning.map_choice _ _ f

theorem optional_eq_orElse_empty :
    Alike slots (optional a) (do orElse a (.rule (← empty))) :=
  .of_means (Means.rep a (.num 0) (some (.num 1)))
    (Means.empty.bind fun _ he => .orElse a.hasMeaning he)
    fun _ => Node.meaning_optional 0 a.node

theorem dropTokens_andThen :
    Alike slots (do dropTokens (← andThen a (.rule b)))
      (do andThen (← dropTokens a) (.rule (← dropTokens b))) :=
  .of_means_eq ((Means.andThen a.hasMeaning b.hasMeaning).bind fun _ hab => .dropTokens hab)
    ((Means.dropTokens a.hasMeaning).bind fun _ hleft =>
      (Means.dropTokens b.hasMeaning).bind fun _ hright => .andThen hleft hright)
    fun _ => Meaning.hush_seq ..

theorem dropTokens_orElse :
    Alike slots (do dropTokens (← orElse a (.rule b)))
      (do orElse (← dropTokens a) (.rule (← dropTokens b))) :=
  map_orElse a b (.action discard)

/-- Bounds that are refused are refused on both sides. -/
theorem dropTokens_rep (least most : Value) :
    Alike slots (do dropTokens (← rep a least most)) (do rep (← dropTokens a) least most) := by
  rcases rep_cases least most with ⟨f, hrep⟩ | ⟨low, high, hrep⟩
  · intro s
    have hdrop : Means slots (dropTokens a) _ := .dropTokens a.hasMeaning
    obtain ⟨r, s₁, hrun, -⟩ := hdrop s
    refine .inl ⟨f, s, s₁, ?_, ?_⟩
    · rw [run_bind, hrep]
    · rw [run_bind_ok hrun, hrep]
  · simp only [hrep]
    exact .of_means_eq ((Means.rep a low high).bind fun _ hr => .dropTokens hr)
      ((Means.dropTokens a.hasMeaning).bind fun d hd =>
        .derive d fun id text => Node.meaning_rep_hush (hd text) id 0 low high)
      fun _ => rfl

/-- An injection point whose slot is filled is a sequence. -/
theorem markInjection_eq_andThen {r : Rule} (h : slots.target? a.chain = some r.node) :
    Alike slots (markInjection a) (andThen a (.rule r)) :=
  .of_means_eq
    (Means.derive a (n := (.splice · a.node a.chain)) fun _ _ => Node.meaning_splice _ _ h)
    (Means.andThen a.hasMeaning r.hasMeaning) fun _ => rfl

/-- **The algebra of the combinators.** For all rules, actions and bounds, and whatever the slots
hold, the two sides of each law are refused alike or run alike. -/
theorem combinator_laws (slots : Slots) (a b c : Rule) (f : Mapper) (least most : Value) :
    Alike slots (do andThen (← andThen a (.rule b)) (.rule c))
        (do andThen a (.rule (← andThen b (.rule c)))) ∧
      Alike slots (do orElse (← orElse a (.rule b)) (.rule c))
        (do orElse a (.rule (← orElse b (.rule c)))) ∧
      Alike slots (do andThen (← empty) (.rule a)) (pure a) ∧
      Alike slots (do andThen a (.rule (← empty))) (pure a) ∧
      Alike slots (do andThen a (.rule (← orElse b (.rule c))))
        (do orElse (← andThen a (.rule b)) (.rule (← andThen a (.rule c)))) ∧
      Alike slots (do map (← orElse a (.rule b)) f) (do orElse (← map a f) (.rule (← map b f))) ∧
      Alike slots (optional a) (do orElse a (.rule (← empty))) ∧
      Alike slots (do dropTokens (← andThen a (.rule b)))
        (do andThen (← dropTokens a) (.rule (← dropTokens b))) ∧
      Alike slots (do dropTokens (← orElse a (.rule b)))
        (do orElse (← dropTokens a) (.rule (← dropTokens b))) ∧
      Alike slots (do dropTokens (← rep a least most)) (do rep (← dropTokens a) least most) ∧
      ∀ r : Rule, slots.target? a.chain = some r.node →
        Alike slots (markInjection a) (andThen a (.rule r)) :=
  ⟨andThen_assoc a b c, orElse_assoc a b c, empty_andThen a, andThen_empty a, andThen_orElse a b c,
    map_orElse a b f, optional_eq_orElse_empty a, dropTokens_andThen a b, dropTokens_orElse a b,
    dropTokens_rep a least most, fun _ h => markInjection_eq_andThen a h⟩

/-- A letter `a`, and an injection point behind it that is resolved to both of them: the point runs
as the letter and then all of it again. -/
theorem combinator_laws_selfInjected :
    let a : Rule := ⟨0, .leaf 0 (.ofRegex "a" (.one (.ofChar 'a') .exact)), 0⟩
    let point : Rule := ⟨1, .splice 1 a.node 0, 0⟩
    Slots.target? #[some point.node] a.chain = some point.node ∧
      Alike #[some point.node] (markInjection a) (andThen a (.rule point)) := by
  intro a point
  have hfilled : Slots.target? #[some point.node] a.chain = some point.node := rfl
  have hlaws := combinator_laws #[some point.node] a a a (.action discard) .null .null
  exact ⟨hfilled, hlaws.2.2.2.2.2.2.2.2.2.2 point hfilled⟩

end Build

end LeafGrammar
