import LeafGrammar.Pattern.Matcher
import LeafGrammar.Proofs.Engine.Displacement
import LeafGrammar.Proofs.Engine.Silence
import LeafGrammar.Proofs.Engine.Termination

/-!
# Repetitions and plain loops

A repetition does not run its child again where a round has succeeded without moving on. The plain
loop does: it goes on until the child fails or the bound is reached (`plainLoop`). Both are told
apart by nothing but the work they do (`rep_runsTo_plainLoop`), since a child that stood still
once would stand still in every further round. The exception is a bound so high that the rounds that
are left cannot be counted.

What both have in common is said once. From an offset the child makes some strides, rounds that
succeed and move on, and then comes to its last round, which fails, faults or stands still
(`Strides`, `exists_last`). There are no more strides than characters left in the text, so a bound
above that number is no bound (`rep_bounded_unbounded`).
-/

namespace LeafGrammar

variable {slots : Slots} {text : List Char}

/-! ### Offsets as numbers -/

/-- The offset as a plain number. A truth value that is given for an offset stands for one. -/
def Integral.number (i : Integral) : Integral := .num i.toInt

/-- The ending with its offset, if it has one, as a plain number. A repetition that stands still
keeps its offset as it was given, where a loop that goes on has it from the last round. -/
def Finish.numbered (e : Finish) : Finish := e.map (Result.moved Integral.number)

theorem leafResult_number (p : Pattern) (text : List Char) (pos : Integral) :
    leafResult p text pos.number = (leafResult p text pos).moved Integral.number := by
  obtain ⟨n, hn⟩ : ∃ n, pos.toInt = n := ⟨_, rfl⟩
  have hnumber : pos.number.toInt = n := hn
  simp only [leafResult, hn, hnumber]
  split_ifs
  · rfl
  · cases p.matched? (Text.suffixFrom text n) with
    | none => rfl
    | some found => simp only [Result.moved, Integral.number, Integral.advance, Integral.toInt_num]

/-- The text itself, with all offsets as plain numbers. -/
def Displacement.numbers (text : List Char) : Displacement text text where
  move := Integral.number
  Covers _ := True
  toInt_move _ _ := Iff.rfl
  leaf p pos _ := leafResult_number p text pos
  covers_leaf _ _ _ := trivial

theorem Derives.numbered {n : Node} {pos : Integral} {e : Finish}
    (h : Derives slots text (.node n pos) e) :
    Derives slots text (.node n pos.number) e.numbered := by
  obtain ⟨fuel, hf⟩ := Machine.exists_evaluate_eq_iff.mpr h
  refine Machine.exists_evaluate_eq_iff.mp ⟨fuel, ?_⟩
  have hcovers : (Displacement.numbers text).Covers pos := trivial
  have hmoved : evaluate fuel slots text n pos.number =
      (evaluate fuel slots text n pos).moved Integral.number :=
    evaluate_alike (.numbers text) (.refl slots) (.of_points fun _ _ => rfl) hcovers fuel
  rw [hmoved, hf]
  cases e <;> rfl

/-- A node answers the same at offsets that are the same number. -/
theorem Derives.numbered_eq {n : Node} {pos pos' : Integral} {e e' : Finish}
    (h : Derives slots text (.node n pos) e) (h' : Derives slots text (.node n pos') e')
    (hpos : pos.toInt = pos'.toInt) : e.numbered = e'.numbered := by
  have hnumber : pos.number = pos'.number := congrArg Integral.num hpos
  exact Machine.derives_unique (hnumber ▸ h.numbered) h'.numbered

namespace Finish

theorem ofRounds_numbered (least : Integral) (tokens : List Value) {cur cur' : Integral}
    (count : Nat) (hcur : cur.toInt = cur'.toInt) :
    (ofRounds least tokens cur count).numbered = (ofRounds least tokens cur' count).numbered := by
  have hnumber : cur.number = cur'.number := congrArg Integral.num hcur
  unfold ofRounds
  split_ifs
  · simp only [numbered, Except.map, Result.moved, hnumber]
  · rfl
  · simp only [numbered, Except.map, Result.moved, hnumber]

theorem exists_of_numbered_eq {e : Finish} {tokens : List Value} {pos : Integral}
    (h : e.numbered = numbered (.ok (.success tokens pos))) :
    ∃ q, e = .ok (.success tokens q) ∧ q.toInt = pos.toInt := by
  rcases e with f | ⟨more, q⟩ | ⟨q, c⟩
  · cases h
  · simp only [numbered, Except.map, Result.moved, Integral.number, Except.ok.injEq,
      Result.success.injEq, Integral.num.injEq] at h
    exact ⟨q, by rw [h.1], h.2⟩
  · cases h

end Finish

/-! ### The plain loop -/

/-- The plain loop after `count` rounds, which gave `tokens` and ended at `cur`: so many rounds more
at most, until one fails. Whether a round moves on is not asked. -/
def plainRounds (answer : Integral → Finish) (least : Integral) :
    Nat → List Value → Integral → Nat → Finish
  | 0, tokens, cur, count => .ofRounds least tokens cur count
  | left + 1, tokens, cur, count =>
    match answer cur with
    | .ok (.success round q) => plainRounds answer least left (tokens ++ round) q (count + 1)
    | .ok (.failure _ _) => .ofRounds least tokens cur count
    | .error f => .error f

/-- The plain loop over a child that answers so at each offset: `most` rounds at most, `least` of
which have to succeed. -/
def plainLoop (answer : Integral → Finish) (least : Integral) (most : Nat) (pos : Integral) :
    Finish :=
  plainRounds answer least most [] pos 0

/-- The ending of a loop whose last round has this ending, and is no success. -/
def Finish.close (least : Integral) (tokens : List Value) (cur : Integral) (count : Nat) :
    Finish → Finish
  | .ok _ => ofRounds least tokens cur count
  | .error f => .error f

variable {answer : Integral → Finish} {pos : Integral}

theorem plainRounds_of_isStop {cur : Integral} (h : (answer cur).IsStop) (least : Integral)
    (left : Nat) (tokens : List Value) (count : Nat) :
    plainRounds answer least (left + 1) tokens cur count =
      (answer cur).close least tokens cur count := by
  rw [plainRounds]
  match answer cur, h with
  | .error f, _ => rfl
  | .ok (.failure q c), _ => rfl

/-- Once a round has stood still all rounds that are left give the same tokens. -/
theorem plainRounds_of_still {cur : Integral} {round : List Value}
    (h : ∀ q, q.toInt = cur.toInt → ∃ q', answer q = .ok (.success round q') ∧ q'.toInt = cur.toInt)
    (least : Integral) (left : Nat) :
    ∀ (tokens : List Value) (q : Integral) (count : Nat), q.toInt = cur.toInt →
      (plainRounds answer least left tokens q count).numbered =
        (Finish.ofRounds least (tokens ++ (List.replicate left round).flatten) cur
          (count + left)).numbered := by
  induction left with
  | zero =>
    intro tokens q count hq
    simp only [plainRounds, List.replicate_zero, List.flatten_nil, List.append_nil, Nat.add_zero]
    exact Finish.ofRounds_numbered _ _ _ hq
  | succ left ih =>
    intro tokens q count hq
    obtain ⟨q', hanswer, hq'⟩ := h q hq
    rw [plainRounds, hanswer]
    simp only
    rw [ih _ q' _ hq', List.replicate_succ, List.flatten_cons, List.append_assoc,
      Nat.add_right_comm, Nat.add_assoc]

/-! ### Rounds that succeed -/

/-- `Rounds answer pos k tokens cur`: so many rounds in a row succeed, lead from `pos` to `cur` and
give the tokens. Whether a round moves on is not asked. -/
inductive Rounds (answer : Integral → Finish) (pos : Integral) :
    Nat → List Value → Integral → Prop where
  | start : Rounds answer pos 0 [] pos
  | next {k : Nat} {tokens round : List Value} {cur q : Integral} :
      Rounds answer pos k tokens cur → answer cur = .ok (.success round q) →
        Rounds answer pos (k + 1) (tokens ++ round) q

/-- The plain loop makes the rounds and goes on from there. -/
theorem Rounds.plainLoop_eq {k : Nat} {tokens : List Value} {cur : Integral}
    (h : Rounds answer pos k tokens cur) (least : Integral) (left : Nat) :
    plainLoop answer least (k + left) pos = plainRounds answer least left tokens cur k := by
  induction h generalizing left with
  | start => rw [Nat.zero_add, plainLoop]
  | @next k tokens round cur q _ hanswer ih =>
    rw [Nat.add_assoc, Nat.add_comm 1, ih, plainRounds, hanswer]

/-! ### Strides -/

/-- `Strides answer pos k tokens cur`: so many rounds, each of which succeeds and moves on, lead
from `pos` to `cur` and give the tokens. -/
inductive Strides (answer : Integral → Finish) (pos : Integral) :
    Nat → List Value → Integral → Prop where
  | start : Strides answer pos 0 [] pos
  | next {k : Nat} {tokens round : List Value} {cur q : Integral} :
      Strides answer pos k tokens cur → answer cur = .ok (.success round q) →
        q.toInt ≠ cur.toInt → Strides answer pos (k + 1) (tokens ++ round) q

/-- After `k` strides a round succeeds where it starts, and gives the tokens `round`. -/
def StandsStill (answer : Integral → Finish) (pos : Integral) (k : Nat) (round : List Value) :
    Prop :=
  ∃ tokens cur q, Strides answer pos k tokens cur ∧ answer cur = .ok (.success round q) ∧
    q.toInt = cur.toInt

/-- A round stands still, and the rounds that are left up to the bound are more than can be
counted. -/
def Overflows (answer : Integral → Finish) (pos most : Integral) : Prop :=
  ∃ k round, StandsStill answer pos k round ∧ Value.maxCount < most.toInt - (k + 1 : Nat)

namespace Strides

variable {k : Nat} {tokens : List Value} {cur : Integral}

theorem take (h : Strides answer pos k tokens cur) {i : Nat} (hi : i ≤ k) :
    ∃ tokens' cur', Strides answer pos i tokens' cur' := by
  induction h with
  | start =>
    obtain rfl : i = 0 := by omega
    exact ⟨_, _, .start⟩
  | @next k tokens round cur q hk hanswer hq ih =>
    by_cases hlast : i = k + 1
    · subst hlast
      exact ⟨_, _, .next hk hanswer hq⟩
    · exact ih (by omega)

theorem rounds (h : Strides answer pos k tokens cur) : Rounds answer pos k tokens cur := by
  induction h with
  | start => exact .start
  | next _ hanswer _ ih => exact .next ih hanswer

/-- The plain loop makes the strides and goes on from there. -/
theorem plainLoop_eq (h : Strides answer pos k tokens cur) (least : Integral) (left : Nat) :
    plainLoop answer least (k + left) pos = plainRounds answer least left tokens cur k :=
  h.rounds.plainLoop_eq least left

variable {child : Node}

/-- Strides go ahead, and each of them takes from what is left of the text. -/
theorem ahead (h : Strides answer pos k tokens cur)
    (hchild : ∀ q, IsAhead text pos q → Derives slots text (.node child q) (answer q)) :
    IsAhead text pos cur ∧ k + Text.left text cur ≤ Text.left text pos := by
  induction h with
  | start => exact ⟨.refl text pos, by omega⟩
  | @next k tokens round cur q _ hanswer hq ih =>
    obtain ⟨hcur, hle⟩ := ih
    have hd := hchild cur hcur
    rw [hanswer] at hd
    have hon := hd.isAhead_of_success
    have hle' := hon.le
    have hlt := hon.left_lt (by omega)
    exact ⟨hcur.trans hon, by omega⟩

/-- The repetition makes the strides too, if the bound lets it. -/
theorem derives (h : Strides answer pos k tokens cur)
    (hchild : ∀ q, IsAhead text pos q → Derives slots text (.node child q) (answer q))
    {least : Integral} {most : Option Integral} {e : Finish}
    (hgo : ∀ i < k, Machine.mayGoOn most i = true)
    (hrest : Derives slots text (.rounds child least most tokens cur k) e) :
    Derives slots text (.rounds child least most [] pos 0) e := by
  induction h with
  | start => exact hrest
  | @next k tokens round cur q hk hanswer hq ih =>
    have hround := hchild cur (hk.ahead hchild).1
    rw [hanswer] at hround
    exact ih (fun i hi => hgo i (by omega)) (.roundsNext (hgo k (by omega)) hround hq hrest)

end Strides

section

variable {child : Node} {k : Nat} {tokens round : List Value} {cur q : Integral}

/-- There is a last round, which comes after the strides. -/
theorem exists_last
    (hchild : ∀ q, IsAhead text pos q → Derives slots text (.node child q) (answer q)) :
    ∃ k tokens cur, Strides answer pos k tokens cur ∧
      ((answer cur).IsStop ∨ ∃ round q, answer cur = .ok (.success round q) ∧
        q.toInt = cur.toInt) := by
  -- on how many strides there may still be
  suffices hall : ∀ left k tokens cur, Text.left text pos - k ≤ left →
      Strides answer pos k tokens cur → ∃ k tokens cur, Strides answer pos k tokens cur ∧
        ((answer cur).IsStop ∨ ∃ round q, answer cur = .ok (.success round q) ∧
          q.toInt = cur.toInt) from hall _ 0 [] pos (Nat.le_refl _) .start
  intro left
  induction left with
  | zero =>
    intro k tokens cur hleft hk
    refine ⟨k, tokens, cur, hk, ?_⟩
    rcases hanswer : answer cur with f | ⟨round, q⟩ | ⟨q, c⟩
    · exact .inl trivial
    · by_cases hq : q.toInt = cur.toInt
      · exact .inr ⟨round, q, rfl, hq⟩
      · have hmore := ((hk.next hanswer hq).ahead hchild).2
        omega
    · exact .inl trivial
  | succ left ih =>
    intro k tokens cur hleft hk
    rcases hanswer : answer cur with f | ⟨round, q⟩ | ⟨q, c⟩
    · exact ⟨k, tokens, cur, hk, .inl (by rw [hanswer]; trivial)⟩
    · by_cases hq : q.toInt = cur.toInt
      · exact ⟨k, tokens, cur, hk, .inr ⟨round, q, hanswer, hq⟩⟩
      · exact ih (k + 1) _ q (by omega) (hk.next hanswer hq)
    · exact ⟨k, tokens, cur, hk, .inl (by rw [hanswer]; trivial)⟩

/-- A round that is no success is the last one of a repetition, too. -/
theorem Derives.roundsStop {least : Integral} {most : Option Integral} {e : Finish}
    (hgo : Machine.mayGoOn most k = true) (hd : Derives slots text (.node child cur) e)
    (he : e.IsStop) :
    Derives slots text (.rounds child least most tokens cur k) (e.close least tokens cur k) := by
  match e, he, hd with
  | .error f, _, hd => exact .roundsFault hgo hd
  | .ok (.failure q c), _, hd => exact .roundsOver hgo hd

/-- A child that stands still at an offset does so wherever the offset is the same number. -/
theorem still_of_toInt_eq
    (hchild : ∀ q, IsAhead text pos q → Derives slots text (.node child q) (answer q))
    (hcur : IsAhead text pos cur) (hanswer : answer cur = .ok (.success round q))
    (hq : q.toInt = cur.toInt) (p : Integral) (hp : p.toInt = cur.toInt) :
    ∃ p', answer p = .ok (.success round p') ∧ p'.toInt = cur.toInt := by
  have hahead : IsAhead text pos p := ⟨hp ▸ hcur.le, hp ▸ hcur.le_end⟩
  have hsame := (hchild p hahead).numbered_eq (hchild cur hcur) hp
  rw [hanswer] at hsame
  obtain ⟨p', hp', htoInt⟩ := Finish.exists_of_numbered_eq hsame
  exact ⟨p', hp', htoInt.trans hq⟩

end

theorem Machine.mayGoOn_some {m : Integral} {count : Nat} :
    mayGoOn (some m) count = true ↔ (count : Int) < m.toInt := by
  simp [mayGoOn]

/-! ### Rounds that are not made -/

theorem Value.repeated_eq {α : Type} (items : List α) (n : Int) :
    repeated items n = (List.replicate n.toNat items).flatten := by
  unfold repeated
  cases items with
  | nil => simp
  | cons item items => rfl

/-- A count that is in range can be repeated by. -/
theorem Value.repeatItems_of_le {α : Type} (items : List α) {n : Int} (hn : 0 ≤ n)
    (hmax : n ≤ maxCount) :
    repeatItems items n = .ok (List.replicate n.toNat items).flatten := by
  have hleast : ¬ n < -maxCount - 1 := by
    unfold maxCount
    omega
  rw [repeatItems, if_neg (by omega), if_neg hleast, repeated_eq]

namespace Finish

variable {least m : Integral} {tokens round : List Value} {cur : Integral} {count : Nat}

/-- The tokens of a round that stands still are taken for all the rounds that are left. -/
theorem ofSettled_of_le (hcount : count ≤ m.toInt) (hmax : m.toInt - count ≤ Value.maxCount) :
    ofSettled least m tokens round cur count =
      ofRounds least (tokens ++ (List.replicate (m.toInt - count).toNat round).flatten) cur
        m.toInt.toNat := by
  rw [ofSettled, Value.repeatItems_of_le round (by omega) hmax]
  rfl

theorem ofSettled_of_lt (hmax : Value.maxCount < m.toInt - count) :
    ofSettled least m tokens round cur count = .error (.overflow .repetitionCount) := by
  rw [ofSettled, Value.repeatItems, if_pos hmax]
  rfl

theorem ofRounds_of_le (h : least.toInt ≤ count) :
    ofRounds least tokens cur count = .ok (.success tokens cur) := by
  rw [ofRounds, if_neg (by omega)]

end Finish

/-! ### Repetitions with a bound -/

section

variable {child : Node}

/-- Too many rounds are left to be counted. -/
theorem Overflows.derives {m : Integral} (h : Overflows answer pos m)
    (hchild : ∀ q, IsAhead text pos q → Derives slots text (.node child q) (answer q))
    (least : Integral) :
    Derives slots text (.rounds child least (some m) [] pos 0)
      (.error (.overflow .repetitionCount)) := by
  obtain ⟨k, round, ⟨tokens, cur, q, hk, hanswer, hq⟩, hmax⟩ := h
  have hgo (i : Nat) (hi : i ≤ k) : Machine.mayGoOn (some m) i = true := by
    refine Machine.mayGoOn_some.mpr ?_
    unfold Value.maxCount at hmax
    omega
  have hround := hchild cur (hk.ahead hchild).1
  rw [hanswer] at hround
  have hend : Finish.ofSettled least m (tokens ++ round) round cur (k + 1) =
      .error (.overflow .repetitionCount) := Finish.ofSettled_of_lt hmax
  refine hk.derives hchild (fun i hi => hgo i (by omega)) ?_
  rw [← hend]
  exact .roundsSettled (hgo k (Nat.le_refl k)) hround hq

/-- **Under a bound a repetition ends as the plain loop does**, if the rounds that are left can be
counted where a round stands still. -/
theorem exists_derives_bounded {m : Integral}
    (hchild : ∀ q, IsAhead text pos q → Derives slots text (.node child q) (answer q))
    (least : Integral) (h : ¬ Overflows answer pos m) :
    ∃ e, Derives slots text (.rounds child least (some m) [] pos 0) e ∧
      e.numbered = (plainLoop answer least m.toInt.toNat pos).numbered := by
  obtain ⟨k, tokens, cur, hk, hlast⟩ := exists_last hchild
  by_cases hfull : m.toInt ≤ k
  · -- the bound is reached among the strides
    obtain ⟨tokens', cur', hm⟩ := hk.take (i := m.toInt.toNat) (by omega)
    refine ⟨_, hm.derives hchild (fun i hi => Machine.mayGoOn_some.mpr (by omega))
      (.roundsFull ?_), ?_⟩
    · rw [← Bool.not_eq_true, Machine.mayGoOn_some]
      omega
    · have hplain := hm.plainLoop_eq least 0
      rw [Nat.add_zero] at hplain
      rw [hplain, plainRounds]
  · obtain ⟨left, hleft⟩ : ∃ left : Nat, m.toInt = k + (left + 1 : Nat) :=
      ⟨(m.toInt - k - 1).toNat, by omega⟩
    have hgo (i : Nat) (hi : i ≤ k) : Machine.mayGoOn (some m) i = true :=
      Machine.mayGoOn_some.mpr (by omega)
    have hround := hchild cur (hk.ahead hchild).1
    have hbound : m.toInt.toNat = k + (left + 1) := by omega
    rcases hlast with hstop | ⟨round, q, hanswer, hq⟩
    · refine ⟨_, hk.derives hchild (fun i hi => hgo i (by omega))
        (.roundsStop (hgo k (Nat.le_refl k)) hround hstop), ?_⟩
      rw [hbound, hk.plainLoop_eq, plainRounds_of_isStop hstop]
    · have hmax : m.toInt - (k + 1 : Nat) ≤ Value.maxCount :=
        Int.not_lt.mp fun hlt => h ⟨k, round, ⟨tokens, cur, q, hk, hanswer, hq⟩, hlt⟩
      have hstill := still_of_toInt_eq hchild (hk.ahead hchild).1 hanswer hq
      rw [hanswer] at hround
      refine ⟨_, hk.derives hchild (fun i hi => hgo i (by omega))
        (.roundsSettled (hgo k (Nat.le_refl k)) hround hq), ?_⟩
      have hrest : (m.toInt - (k + 1 : Nat)).toNat = left := by omega
      rw [Finish.ofSettled_of_le (by omega) hmax, hrest, hbound, hk.plainLoop_eq,
        plainRounds_of_still hstill least (left + 1) tokens cur k rfl, List.replicate_succ,
        List.flatten_cons, List.append_assoc]

end

/-! ### Repetitions without one -/

section

variable {child : Node}

theorem StandsStill.derives {k : Nat} {round : List Value} (h : StandsStill answer pos k round)
    (hchild : ∀ q, IsAhead text pos q → Derives slots text (.node child q) (answer q))
    (least : Integral) :
    ∃ e, Derives slots text (.rounds child least none [] pos 0) e ∧
      e.numbered = (plainLoop answer (.num 0) (k + 1) pos).numbered := by
  obtain ⟨tokens, cur, q, hk, hanswer, hq⟩ := h
  have hround := hchild cur (hk.ahead hchild).1
  rw [hanswer] at hround
  refine ⟨_, hk.derives hchild (fun _ _ => rfl) (.roundsFree hround hq), ?_⟩
  rw [hk.plainLoop_eq, plainRounds, hanswer]
  simp only [plainRounds]
  have hcount : (Integral.num 0).toInt ≤ (k + 1 : Nat) := Int.natCast_nonneg _
  rw [Finish.ofRounds_numbered _ _ _ hq, Finish.ofRounds_of_le hcount]

theorem exists_derives_free
    (hchild : ∀ q, IsAhead text pos q → Derives slots text (.node child q) (answer q))
    (least : Integral) (h : ∀ k round, ¬ StandsStill answer pos k round) :
    ∃ e rounds, Derives slots text (.rounds child least none [] pos 0) e ∧
      ∀ n, rounds ≤ n → plainLoop answer least n pos = e := by
  obtain ⟨k, tokens, cur, hk, hstop | ⟨round, q, hanswer, hq⟩⟩ := exists_last hchild
  · have hround := hchild cur (hk.ahead hchild).1
    refine ⟨_, k + 1, hk.derives hchild (fun _ _ => rfl) (.roundsStop rfl hround hstop), ?_⟩
    intro n hn
    obtain ⟨left, rfl⟩ : ∃ left, n = k + (left + 1) := ⟨n - k - 1, by omega⟩
    rw [hk.plainLoop_eq, plainRounds_of_isStop hstop]
  · exact absurd ⟨tokens, cur, q, hk, hanswer, hq⟩ (h k round)

end

/-- **A repetition is a plain loop.** Let a child end with `answer q` at each offset `q` from `pos`
on. Under a bound a repetition of it ends as the plain loop does, which makes a round even where the
last one stood still; only where a round stands still with more rounds left than can be counted it
ends with an overflow. Without a bound it ends as the plain loop does that is stopped after the
first round that stands still, whatever number of rounds was asked for; if none does, as the plain
loop does however many rounds it is given. -/
theorem rep_runsTo_plainLoop {child : Node} {answer : Integral → Finish} {pos : Integral}
    (hchild : ∀ q, IsAhead text pos q → child.RunsTo slots text q (answer q)) (id : NodeId)
    (least : Integral) :
    (∀ most : Integral,
      (Overflows answer pos most →
        (Node.rep id child least (some most)).RunsTo slots text pos
          (.error (.overflow .repetitionCount))) ∧
      (¬ Overflows answer pos most →
        ∃ e, (Node.rep id child least (some most)).RunsTo slots text pos e ∧
          e.numbered = (plainLoop answer least most.toInt.toNat pos).numbered)) ∧
    (∀ (k : Nat) (round : List Value), StandsStill answer pos k round →
      ∃ e, (Node.rep id child least none).RunsTo slots text pos e ∧
        e.numbered = (plainLoop answer (.num 0) (k + 1) pos).numbered) ∧
    ((∀ (k : Nat) (round : List Value), ¬ StandsStill answer pos k round) →
      ∃ e rounds, (Node.rep id child least none).RunsTo slots text pos e ∧
        ∀ n, rounds ≤ n → plainLoop answer least n pos = e) := by
  simp only [Node.runsTo_iff] at hchild ⊢
  refine ⟨fun most => ⟨fun h => .rep (h.derives hchild least), fun h => ?_⟩, fun k round h => ?_,
    fun h => ?_⟩
  · obtain ⟨e, hd, he⟩ := exists_derives_bounded hchild least h
    exact ⟨e, .rep hd, he⟩
  · obtain ⟨e, hd, he⟩ := h.derives hchild least
    exact ⟨e, .rep hd, he⟩
  · obtain ⟨e, rounds, hd, he⟩ := exists_derives_free hchild least h
    exact ⟨e, rounds, .rep hd, he⟩

/-- A letter `a`, or else the node. -/
def letterOr (n : Node) : Node :=
  .choice 2 (.leaf 0 (.ofRegex "a" (.one (.ofChar 'a') .exact))) n

/-- A node that answers so at nought, one and two, and at the truth values, does so at all offsets
of `ab`. -/
theorem runsTo_of_evaluate {n : Node} {answer : Integral → Finish}
    (h : [.num 0, .num 1, .num 2, .truth false, .truth true].Forall fun q =>
      evaluate 20 #[] ['a', 'b'] n q = .ofExcept (answer q))
    {q : Integral} (hq : IsAhead ['a', 'b'] (.num 0) q) :
    n.RunsTo #[] ['a', 'b'] q (answer q) := by
  obtain ⟨h₀, h₁, h₂, hfalse, htrue⟩ := h
  refine Node.runsTo_iff.mpr (Machine.exists_evaluate_eq_iff.mp ⟨20, ?_⟩)
  match q, hq with
  | .num 0, _ => exact h₀
  | .num 1, _ => exact h₁
  | .num 2, _ => exact h₂
  | .truth false, _ => exact hfalse
  | .truth true, _ => exact htrue

/-- What a letter `a`, or else the empty pattern, answers in the text `ab`. -/
def letterOrBlank (q : Integral) : Finish :=
  if q.toInt = 0 then .ok (.success [.text "a"] (.num 1))
  else if q.toInt = 1 then .ok (.success [.text ""] (.num 1))
  else .ok (.failure q (some .pastEnd))

/-- In `ab` the second round stands still. Four rounds have four tokens, as many rounds as cannot be
counted overflow, and without a bound the two rounds are as good as nine. -/
theorem rep_runsTo_plainLoop_letterOrBlank :
    (∀ q, IsAhead ['a', 'b'] (.num 0) q →
      (letterOr (.leaf 1 (.ofRegex "" .empty))).RunsTo #[] ['a', 'b'] q (letterOrBlank q)) ∧
    (∃ e, (Node.rep 3 (letterOr (.leaf 1 (.ofRegex "" .empty))) (.num 2) (some (.num 4))).RunsTo #[]
        ['a', 'b'] (.num 0) e ∧
      e.numbered = .ok (.success [.text "a", .text "", .text "", .text ""] (.num 1))) ∧
    (Node.rep 3 (letterOr (.leaf 1 (.ofRegex "" .empty))) (.num 2)
      (some (.num 9223372036854775810))).RunsTo #[] ['a', 'b'] (.num 0)
        (.error (.overflow .repetitionCount)) ∧
    ∃ e, (Node.rep 3 (letterOr (.leaf 1 (.ofRegex "" .empty))) (.num 9) none).RunsTo #[] ['a', 'b']
        (.num 0) e ∧
      e.numbered = .ok (.success [.text "a", .text ""] (.num 1)) := by
  have hchild (q : Integral) (hq : IsAhead ['a', 'b'] (.num 0) q) :
      (letterOr (.leaf 1 (.ofRegex "" .empty))).RunsTo #[] ['a', 'b'] q (letterOrBlank q) := by
    refine runsTo_of_evaluate ?_ hq
    exact ⟨rfl, rfl, rfl, rfl, rfl⟩
  have hstill : StandsStill letterOrBlank (.num 0) 1 [.text ""] :=
    ⟨_, .num 1, .num 1, .next .start rfl (by decide), rfl, rfl⟩
  have hfew : ¬ Overflows letterOrBlank (.num 0) (.num 4) := by
    rintro ⟨k, round, -, hmax⟩
    simp only [Integral.toInt_num, Value.maxCount] at hmax
    omega
  refine ⟨hchild, ?_, ?_, ?_⟩
  · exact ((rep_runsTo_plainLoop hchild 3 (.num 2)).1 (.num 4)).2 hfew
  · exact ((rep_runsTo_plainLoop hchild 3 (.num 2)).1 _).1 ⟨1, _, hstill, by decide⟩
  · exact (rep_runsTo_plainLoop hchild 3 (.num 9)).2.1 1 _ hstill

/-! ### Bounds above the length of the text -/

/-- **A bound above what is left of the text is no bound.** A repetition under a bound that is
higher than the number of characters left, and not below the number of rounds asked for, ends as the
repetition without a bound does: both with a success at the same offset, or both with the same
failure, or both with the same fault. The tokens of the two successes are the same, too, if a round
that stands still gives none. -/
theorem rep_bounded_unbounded {child : Node} {answer : Integral → Finish} {pos : Integral}
    (hchild : ∀ q, IsAhead text pos q → child.RunsTo slots text q (answer q))
    (hpos : pos.toInt ≤ text.length) {least most : Integral} (hleast : least.toInt ≤ most.toInt)
    (hleft : text.length - pos.toInt + 1 ≤ most.toInt) (hmost : most.toInt ≤ Value.maxCount)
    (i j : NodeId) :
    ∃ e e' : Finish, (Node.rep i child least (some most)).RunsTo slots text pos e ∧
      (Node.rep j child least none).RunsTo slots text pos e' ∧
      e.map Result.withoutTokens = e'.map Result.withoutTokens ∧
      ((∀ (k : Nat) (round : List Value), StandsStill answer pos k round → round = []) →
        e = e') := by
  simp only [Node.runsTo_iff] at hchild ⊢
  obtain ⟨k, tokens, cur, hk, hlast⟩ := exists_last hchild
  obtain ⟨hcur, hstrides⟩ := hk.ahead hchild
  have hlt : (k : Int) < most.toInt := by
    unfold Text.left at hstrides
    omega
  have hgo (i : Nat) (hi : i ≤ k) : Machine.mayGoOn (some most) i = true :=
    Machine.mayGoOn_some.mpr (by omega)
  have hround := hchild cur hcur
  rcases hlast with hstop | ⟨round, q, hanswer, hq⟩
  · refine ⟨_, _, .rep (hk.derives hchild (fun i hi => hgo i (by omega))
      (.roundsStop (hgo k (Nat.le_refl k)) hround hstop)),
      .rep (hk.derives hchild (fun _ _ => rfl) (.roundsStop rfl hround hstop)), rfl, fun _ => rfl⟩
  · rw [hanswer] at hround
    refine ⟨_, _, .rep (hk.derives hchild (fun i hi => hgo i (by omega))
      (.roundsSettled (hgo k (Nat.le_refl k)) hround hq)),
      .rep (hk.derives hchild (fun _ _ => rfl) (.roundsFree hround hq)), ?_, ?_⟩
    · rw [Finish.ofSettled_of_le (by omega) (by omega), Finish.ofRounds_of_le (by omega)]
      rfl
    · intro hempty
      obtain rfl := hempty k round ⟨tokens, cur, q, hk, hanswer, hq⟩
      rw [Finish.ofSettled_of_le (by omega) (by omega), Finish.ofRounds_of_le (by omega)]
      simp

/-- What a letter `a`, or else nothing, answers in the text `ab`. -/
def letterOrNothing (q : Integral) : Finish :=
  if q.toInt = 0 then .ok (.success [.text "a"] (.num 1)) else .ok (.success [] q)

/-- In `ab` three rounds at most are as good as any number of them. -/
theorem rep_bounded_unbounded_letterOrNothing :
    (∀ q, IsAhead ['a', 'b'] (.num 0) q →
      (letterOr (.empty 1)).RunsTo #[] ['a', 'b'] q (letterOrNothing q)) ∧
    ∃ e, (Node.rep 3 (letterOr (.empty 1)) (.num 2) (some (.num 3))).RunsTo #[] ['a', 'b']
        (.num 0) e ∧
      (Node.rep 3 (letterOr (.empty 1)) (.num 2) none).RunsTo #[] ['a', 'b'] (.num 0) e := by
  have hchild (q : Integral) (hq : IsAhead ['a', 'b'] (.num 0) q) :
      (letterOr (.empty 1)).RunsTo #[] ['a', 'b'] q (letterOrNothing q) := by
    refine runsTo_of_evaluate ?_ hq
    exact ⟨rfl, rfl, rfl, rfl, rfl⟩
  have hempty (k : Nat) (round : List Value)
      (h : StandsStill letterOrNothing (.num 0) k round) : round = [] := by
    obtain ⟨tokens, cur, q, -, hanswer, hq⟩ := h
    unfold letterOrNothing at hanswer
    split at hanswer
    · rename_i hcur
      cases hanswer
      rw [hcur] at hq
      cases hq
    · cases hanswer
      rfl
  have hleast : (Integral.num 2).toInt ≤ (Integral.num 3).toInt := by decide
  obtain ⟨e, e', he, he', -, hsame⟩ :=
    rep_bounded_unbounded hchild (by decide) hleast (by decide) (by decide) 3 3
  obtain rfl := hsame hempty
  exact ⟨hchild, e, he, he'⟩

end LeafGrammar
