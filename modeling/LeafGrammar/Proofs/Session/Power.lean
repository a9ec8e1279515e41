import LeafGrammar.Proofs.Engine.Repetition
import LeafGrammar.Proofs.Number.Literal
import LeafGrammar.Proofs.Session.Parsing

/-!
# A rule so many times in a row

To ask for a rule exactly `k` times can be said in two ways: as a repetition with `k` for both its
bounds, or as a chain of `k` copies of the rule, one sequence inside the other. The repetition
counts its rounds and gives up early where one stands still; the chain knows nothing of rounds.

From an offset some rounds succeed, `k` of them or fewer, and then the next one does not
(`Rounds.exists_longest`). That decides both (`IsPower.derives_of_rounds`,
`IsPower.derives_of_isStop`, and the plain loop for the repetition). They differ in one thing only:
where a round fails the chain has the failure of the round, and the repetition has its own, at the
start of the round (`rep_accords_power`).
-/

namespace LeafGrammar

variable {slots : Slots} {text : List Char} {answer : Integral → Finish} {pos : Integral}

/-! ### Rounds in a row -/

namespace Rounds

variable {k : Nat} {tokens : List Value} {cur : Integral}

/-- All of `k` rounds succeed, or fewer do and the next one does not. -/
theorem exists_longest (answer : Integral → Finish) (pos : Integral) (k : Nat) :
    ∃ i tokens cur, i ≤ k ∧ Rounds answer pos i tokens cur ∧ (i < k → (answer cur).IsStop) := by
  induction k with
  | zero => exact ⟨0, [], pos, Nat.le_refl 0, .start, fun h => absurd h (Nat.lt_irrefl 0)⟩
  | succ k ih =>
    obtain ⟨i, tokens, cur, hi, hrounds, hstop⟩ := ih
    by_cases hlast : i < k
    · exact ⟨i, tokens, cur, by omega, hrounds, fun _ => hstop hlast⟩
    · obtain rfl : i = k := by omega
      rcases hanswer : answer cur with f | ⟨round, q⟩ | ⟨q, c⟩
      · exact ⟨i, tokens, cur, by omega, hrounds, fun _ => by rw [hanswer]; trivial⟩
      · exact ⟨i + 1, _, q, Nat.le_refl _, hrounds.next hanswer,
          fun h => absurd h (Nat.lt_irrefl _)⟩
      · exact ⟨i, tokens, cur, by omega, hrounds, fun _ => by rw [hanswer]; trivial⟩

theorem isAhead {child : Node} (h : Rounds answer pos k tokens cur)
    (hchild : ∀ q, IsAhead text pos q → Derives slots text (.node child q) (answer q)) :
    IsAhead text pos cur := by
  induction h with
  | start => exact .refl text pos
  | @next k tokens round cur q _ hanswer ih =>
    have hround := hchild cur ih
    rw [hanswer] at hround
    exact ih.trans hround.isAhead_of_success

end Rounds

/-! ### Chains -/

/-- The node is a chain of `k` copies of the child, the first ones innermost. -/
inductive IsPower (child : Node) : Nat → Node → Prop where
  | one : IsPower child 1 child
  | next {k : Nat} {n : Node} (id : NodeId) :
      IsPower child k n → IsPower child (k + 1) (.seq id n child)

theorem Finish.after_of_isStop {e : Finish} (h : e.IsStop) (tokens : List Value) :
    e.after tokens = e := by
  match e, h with
  | .error f, _ => rfl
  | .ok (.failure q c), _ => rfl

namespace IsPower

variable {child n : Node} {k : Nat} {tokens : List Value} {cur : Integral}

/-- If all the rounds succeed the chain has their tokens. -/
theorem derives_of_rounds (h : IsPower child k n) (hrounds : Rounds answer pos k tokens cur)
    (hchild : ∀ q, IsAhead text pos q → Derives slots text (.node child q) (answer q)) :
    Derives slots text (.node n pos) (.ok (.success tokens cur)) := by
  induction h generalizing tokens cur with
  | one =>
    cases hrounds with
    | next hbefore hanswer =>
      cases hbefore
      have hround := hchild pos (.refl text pos)
      rwa [hanswer] at hround
  | next id _ ih =>
    cases hrounds with
    | next hbefore hanswer =>
      have hround := hchild _ (hbefore.isAhead hchild)
      rw [hanswer] at hround
      exact .seq (ih hbefore) hround

/-- If they do not, the chain ends with the first round that does not succeed. -/
theorem derives_of_isStop (h : IsPower child k n) {i : Nat}
    (hrounds : Rounds answer pos i tokens cur) (hi : i < k) (hstop : (answer cur).IsStop)
    (hchild : ∀ q, IsAhead text pos q → Derives slots text (.node child q) (answer q)) :
    Derives slots text (.node n pos) (answer cur) := by
  have hround := hchild cur (hrounds.isAhead hchild)
  induction h with
  | one =>
    obtain rfl : i = 0 := by omega
    cases hrounds
    exact hround
  | @next k n id hpower ih =>
    by_cases hlast : i < k
    · exact .seqStop (ih hlast) hstop
    · obtain rfl : i = k := by omega
      rw [← Finish.after_of_isStop hstop tokens]
      exact .seq (hpower.derives_of_rounds hrounds hchild) hround

end IsPower

/-! ### Both ways -/

/-- How an exact repetition and a chain may end, in this order, over a child that answers so. -/
inductive Accords (answer : Integral → Finish) (pos : Integral) (k : Nat) :
    Finish → Finish → Prop where
  /-- Both succeed with the same tokens and at the same number. -/
  | success {tokens : List Value} {q q' : Integral} : q.toInt = q'.toInt →
      Accords answer pos k (.ok (.success tokens q)) (.ok (.success tokens q'))
  /-- Both are stopped by the same fault. -/
  | fault (f : Fault) : Accords answer pos k (.error f) (.error f)
  /-- Fewer than `k` rounds succeed. The chain fails as the next one does, and the repetition at the
  start of that round, which is not behind the place where it fails. -/
  | failure {i : Nat} {tokens : List Value} {start start' q : Integral} {c : Option Complaint} :
      i < k → Rounds answer pos i tokens start → answer start = .ok (.failure q c) →
        start'.toInt = start.toInt → start'.toInt ≤ q.toInt →
          Accords answer pos k (.ok (.failure start' (some (.tooFew (.num k) i))))
            (.ok (.failure q c))

/-- A number of rounds that can be counted can be written, too. -/
theorem Number.isWritable_of_le {k : Nat} (hk : (k : Int) ≤ Value.maxCount) :
    Number.isWritable k = true := by
  have hshort : (Nat.toDigits 10 k).length ≤ 19 := by
    rw [Nat.length_toDigits_le_iff (by decide) (by decide)]
    unfold Value.maxCount at hk
    omega
  exact decide_eq_true (Nat.le_trans hshort (by decide))

theorem not_overflows {k : Nat} (hk : (k : Int) ≤ Value.maxCount) :
    ¬ Overflows answer pos (.num k) := by
  rintro ⟨i, round, -, hmax⟩
  rw [Integral.toInt_num] at hmax
  omega

theorem Finish.exists_of_numbered_eq_failure {e : Finish} {q : Integral} {c : Option Complaint}
    (h : e.numbered = numbered (.ok (.failure q c))) :
    ∃ q', e = .ok (.failure q' c) ∧ q'.toInt = q.toInt := by
  rcases e with f | ⟨tokens, q'⟩ | ⟨q', c'⟩
  · cases h
  · cases h
  · simp only [numbered, Except.map, Result.moved, Integral.number, Except.ok.injEq,
      Result.failure.injEq, Integral.num.injEq] at h
    exact ⟨q', by rw [h.2], h.1⟩

theorem Finish.eq_of_numbered_eq_fault {e : Finish} {f : Fault}
    (h : e.numbered = numbered (.error f)) : e = .error f := by
  rcases e with f | ⟨tokens, q⟩ | ⟨q, c⟩ <;> cases h
  rfl

/-- A repetition and a chain of as many copies end as they may. -/
theorem IsPower.exists_accords {child n : Node} {k : Nat} (h : IsPower child k n)
    (hk : (k : Int) ≤ Value.maxCount)
    (hchild : ∀ q, IsAhead text pos q → Derives slots text (.node child q) (answer q))
    (id : NodeId) :
    ∃ e e', Derives slots text (.node (.rep id child (.num k) (some (.num k))) pos) e ∧
      Derives slots text (.node n pos) e' ∧ Accords answer pos k e e' := by
  obtain ⟨e, he, hplain⟩ := exists_derives_bounded hchild (.num k) (not_overflows hk)
  rw [Integral.toInt_num, Int.toNat_natCast] at hplain
  obtain ⟨i, tokens, cur, hi, hrounds, hstop⟩ := Rounds.exists_longest answer pos k
  by_cases hall : i = k
  · subst hall
    have hloop := hrounds.plainLoop_eq (.num i) 0
    rw [Nat.add_zero, plainRounds, Finish.ofRounds_of_le (by simp)] at hloop
    rw [hloop] at hplain
    obtain ⟨q, rfl, hq⟩ := Finish.exists_of_numbered_eq hplain
    exact ⟨_, _, .rep he, h.derives_of_rounds hrounds hchild, .success hq⟩
  · have hlt : i < k := by omega
    obtain ⟨left, hleft⟩ : ∃ left, k = i + (left + 1) := ⟨k - i - 1, by omega⟩
    have hchain := h.derives_of_isStop hrounds hlt (hstop hlt) hchild
    have hloop := hrounds.plainLoop_eq (.num k) (left + 1)
    rw [← hleft, plainRounds_of_isStop (hstop hlt)] at hloop
    rw [hloop] at hplain
    refine ⟨e, _, .rep he, hchain, ?_⟩
    rcases hanswer : answer cur with f | ⟨round, q⟩ | ⟨q, c⟩
    · rw [hanswer] at hplain
      obtain rfl := Finish.eq_of_numbered_eq_fault hplain
      exact .fault f
    · exact absurd (hstop hlt) (by simp [hanswer])
    · have hfew : Finish.close (.num k) tokens cur i (.ok (.failure q c)) =
          .ok (.failure cur (some (.tooFew (.num k) i))) := by
        have hshow : (Integral.num k).isShowable = true := Number.isWritable_of_le hk
        rw [Finish.close, Finish.ofRounds, if_pos (by simpa using hlt), hshow, if_pos rfl]
      rw [hanswer, hfew] at hplain
      obtain ⟨start, rfl, hstart⟩ := Finish.exists_of_numbered_eq_failure hplain
      have hround := hchild cur (hrounds.isAhead hchild)
      rw [hanswer] at hround
      have hahead : IsAhead text cur q := hround.isAhead
      exact .failure hlt hrounds hanswer hstart (hstart ▸ hahead.le)

/-! ### Building them -/

namespace Build

variable {s : Session}

/-- The rule, and then so many times more, one copy after the other. -/
def chained (r : Rule) : Nat → Build Rule
  | 0 => return r
  | more + 1 => do
    let before ← chained r more
    andThen before (.rule r)

theorem chained_makes (r : Rule) (more : Nat) :
    Makes (chained r more) s fun r' _ => IsPower r.node (more + 1) r'.node := by
  induction more with
  | zero => exact ⟨r, s, rfl, .refl s, .one⟩
  | succ more ih =>
    refine ih.bind fun before s₁ _ hbefore => ?_
    refine (andThen_makes before r).mono fun r' s₂ _ hr' => ?_
    obtain ⟨⟨id, hid⟩, -⟩ := hr'
    rw [hid]
    exact .next id hbefore

theorem leastOf_int {n : Int} (hn : 0 ≤ n) (hw : Number.isWritable n = true) :
    leastOf (.int n) s = (.ok (.num n), s) := by
  have hshown : (Value.int n).shown = .ok (toString n) := by
    rw [Value.shown]
    exact if_pos hw
  have hbound : 0 ≤ (Integral.num n).toInt := hn
  unfold leastOf
  rw [hshown, run_bind_ok (run_lift _ s)]
  simp only [Value.integral?, if_pos hbound]
  rfl

theorem mostOf_int {m n : Int} (hn : m ≤ n) (hm : Number.isWritable m = true)
    (hw : Number.isWritable n = true) :
    mostOf (.num m) (.int n) s = (.ok (some (.num n)), s) := by
  have hlow : (Integral.num m).shown = .ok (toString m) := if_pos hm
  have hshown : (Value.int n).shown = .ok (toString n) := by
    rw [Value.shown]
    exact if_pos hw
  have hbound : (Integral.num m).toInt ≤ (Integral.num n).toInt := hn
  unfold mostOf
  rw [hlow, run_bind_ok (run_lift _ s), hshown, run_bind_ok (run_lift _ s)]
  simp only [Value.integral?, if_pos hbound]
  rfl

/-- A rule can be asked for exactly so many times. -/
theorem rep_exact_makes (r : Rule) {k : Nat} (hk : (k : Int) ≤ Value.maxCount) :
    Makes (rep r (.int k) (.int k)) s fun r' _ =>
      ∃ id, r'.node = .rep id r.node (.num k) (some (.num k)) := by
  have hw := Number.isWritable_of_le hk
  obtain ⟨r', s', hrun, hg, hr', -⟩ : Makes _ s _ :=
    derive_makes r (.rep · r.node (.num k) (some (.num k)))
  refine ⟨r', s', ?_, hg, hr'⟩
  rw [rep, run_bind_ok (leastOf_int (Int.natCast_nonneg k) hw),
    run_bind_ok (mostOf_int (Int.le_refl _) hw hw), hrun]

end Build

/-- **To repeat a rule exactly `k` times is to have it `k` times in a row**, for every `k` that can
be counted. A repetition with `k` for both bounds and a chain of `k` copies can be built of any
rule. Wherever the rule ends at each offset from `pos` on, the two end with the same tokens and at
the same offset, or with the same fault; or both fail, the repetition at the start of the round that
failed, and the chain where that round did. -/
theorem rep_accords_power (s : Session) (a : Rule) (k : Nat) (hpos : 0 < k)
    (hk : (k : Int) ≤ Value.maxCount) :
    ∃ r s₁ c s₂, Build.rep a (.int k) (.int k) s = (.ok r, s₁) ∧
      Build.chained a (k - 1) s₁ = (.ok c, s₂) ∧
        ∀ (slots : Slots) (text : List Char) (pos : Integral) (answer : Integral → Finish),
          (∀ q, IsAhead text pos q → a.node.RunsTo slots text q (answer q)) →
            ∃ e e', r.node.RunsTo slots text pos e ∧ c.node.RunsTo slots text pos e' ∧
              Accords answer pos k e e' := by
  obtain ⟨r, s₁, hr, -, id, hrep⟩ := Build.rep_exact_makes (s := s) a hk
  obtain ⟨c, s₂, hc, -, hpower⟩ := Build.chained_makes (s := s₁) a (k - 1)
  rw [Nat.sub_add_cancel hpos] at hpower
  refine ⟨r, s₁, c, s₂, hr, hc, fun slots text pos answer hchild => ?_⟩
  simp only [Node.runsTo_iff] at hchild ⊢
  rw [hrep]
  exact hpower.exists_accords hk hchild id

/-- A letter `a`, or else two letters `b`. -/
def letterOrPair : Node :=
  letterOr (.seq 4 (.leaf 1 (.ofRegex "b" (.one (.ofChar 'b') .exact)))
    (.leaf 3 (.ofRegex "b" (.one (.ofChar 'b') .exact))))

/-- What it answers in the text `ab`. -/
def letterOrPairAnswer (q : Integral) : Finish :=
  if q.toInt = 0 then .ok (.success [.text "a"] (.num 1))
  else if q.toInt = 1 then .ok (.failure (.num 2) (some .pastEnd))
  else .ok (.failure q (some .pastEnd))

/-- In `ab` the second round starts at the letter `b` and fails behind it. -/
theorem rep_accords_power_letterOrPair :
    (0 < 2 ∧ ((2 : Nat) : Int) ≤ Value.maxCount) ∧
    (∀ q, IsAhead ['a', 'b'] (.num 0) q →
      letterOrPair.RunsTo #[] ['a', 'b'] q (letterOrPairAnswer q)) ∧
    ∃ r s₁ c s₂,
      Build.rep ⟨5, letterOrPair, 0⟩ (.int 2) (.int 2) (Session.new (Journal.new false "WARNING")) =
        (.ok r, s₁) ∧ Build.chained ⟨5, letterOrPair, 0⟩ 1 s₁ = (.ok c, s₂) ∧
      ∃ e e', r.node.RunsTo #[] ['a', 'b'] (.num 0) e ∧ c.node.RunsTo #[] ['a', 'b'] (.num 0) e' ∧
        Accords letterOrPairAnswer (.num 0) 2 e e' := by
  have hk : ((2 : Nat) : Int) ≤ Value.maxCount := by decide
  have hchild (q : Integral) (hq : IsAhead ['a', 'b'] (.num 0) q) :
      letterOrPair.RunsTo #[] ['a', 'b'] q (letterOrPairAnswer q) := by
    refine runsTo_of_evaluate ?_ hq
    exact ⟨rfl, rfl, rfl, rfl, rfl⟩
  obtain ⟨r, s₁, c, s₂, hr, hc, hends⟩ :=
    rep_accords_power (Session.new (Journal.new false "WARNING")) ⟨5, letterOrPair, 0⟩ 2
      (by decide) hk
  exact ⟨⟨by decide, hk⟩, hchild, r, s₁, c, s₂, hr, hc, hends _ _ _ _ hchild⟩

end LeafGrammar
