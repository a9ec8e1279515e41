import LeafGrammar.Proofs.Engine.Answers
import LeafGrammar.Proofs.Engine.Repetition
import Mathlib.Data.Part

/-!
# The algebra of rules

What a rule does on a text is said by its ending at each offset, a partial value: a rule that runs
for ever has none (`Meaning`). A sequence is a bind that goes on after a success, a choice one that
goes on after a failure, and an action one that gives the tokens away. The meaning of a node is made
of the meanings of its parts in this way, with no stack and no derivation in it (`Node.meaning`).

So the laws of sequences, choices and actions are laws of binds. They hold with the failures, the
faults and the endlessness on both sides, also where one side runs a rule twice: it has one ending.
Only the law for repetitions needs an induction, over the rounds (`Node.meaning_rep_hush`).
-/

namespace LeafGrammar

variable {slots : Slots} {text : List Char} {pos : Integral}

/-! ### Going on -/

namespace Finish

/-- Go on after a success, and stay with any other ending. -/
def thenRun (next : List Value → Integral → Part Finish) : Finish → Part Finish
  | .ok (.success tokens pos) => next tokens pos
  | e => .some e

/-- Go on after a failure, and stay with any other ending. -/
def orRun (next : Part Finish) : Finish → Part Finish
  | .ok (.failure _ _) => next
  | e => .some e

/-- The ending without tokens. -/
def hushed (e : Finish) : Finish := e.map Result.withoutTokens

section

variable (next : List Value → Integral → Part Finish) (other : Part Finish)
variable (tokens : List Value) (c : Option Complaint) (f : Fault)

@[simp] theorem thenRun_success : thenRun next (.ok (.success tokens pos)) = next tokens pos := rfl

@[simp] theorem thenRun_failure :
    thenRun next (.ok (.failure pos c)) = .some (.ok (.failure pos c)) := rfl

@[simp] theorem thenRun_fault : thenRun next (.error f) = .some (.error f) := rfl

@[simp] theorem orRun_success :
    orRun other (.ok (.success tokens pos)) = .some (.ok (.success tokens pos)) := rfl

@[simp] theorem orRun_failure : orRun other (.ok (.failure pos c)) = other := rfl

@[simp] theorem orRun_fault : orRun other (.error f) = .some (.error f) := rfl

@[simp] theorem hushed_success : hushed (.ok (.success tokens pos)) = .ok (.success [] pos) := rfl

@[simp] theorem hushed_failure : hushed (.ok (.failure pos c)) = .ok (.failure pos c) := rfl

@[simp] theorem hushed_fault : hushed (.error f) = .error f := rfl

theorem thenRun_of_isStop {e : Finish} (h : e.IsStop) : thenRun next e = .some e := by
  match e, h with
  | .error f, _ => rfl
  | .ok (.failure q c), _ => rfl

theorem orRun_of_not_isFailure {e : Finish} (h : ¬ e.IsFailure) : orRun other e = .some e := by
  match e, h with
  | .error f, _ => rfl
  | .ok (.success tokens q), _ => rfl
  | .ok (.failure q c), h => exact absurd trivial h

end

theorem after_after (tokens more : List Value) (e : Finish) :
    (e.after more).after tokens = e.after (tokens ++ more) := by
  rcases e with f | ⟨rest, q⟩ | ⟨q, c⟩
  · rfl
  · simp
  · rfl

end Finish

/-! ### Meanings -/

/-- What a rule does on a text: its ending at each offset. A rule that runs for ever has none. -/
abbrev Meaning := Integral → Part Finish

namespace Meaning

/-- Succeed with nothing. -/
def empty : Meaning := fun pos => .some (.ok (.success [] pos))

/-- One after the other. -/
def seq (A B : Meaning) : Meaning := fun pos =>
  (A pos).bind (Finish.thenRun fun tokens q => (B q).map (.after tokens))

/-- The one, or the other if it fails. -/
def choice (A B : Meaning) : Meaning := fun pos => (A pos).bind (Finish.orRun (B pos))

/-- The tokens given to an action. -/
def map (f : Action) (A : Meaning) : Meaning := fun pos =>
  (A pos).bind (Finish.thenRun fun tokens q => .some ((f.newTokens tokens).map (.success · q)))

/-- The tokens dropped. -/
def hush (A : Meaning) : Meaning := fun pos => (A pos).map .hushed

/-- The offsets as plain numbers. -/
def numbered (A : Meaning) : Meaning := fun pos => (A pos).map .numbered

variable (A B C : Meaning)

theorem seq_assoc : (A.seq B).seq C = A.seq (B.seq C) := by
  funext pos
  simp only [seq, Part.bind_assoc]
  congr 1
  funext e
  rcases e with f | ⟨tokens, q⟩ | ⟨q, complaint⟩
  · simp
  · rw [Finish.thenRun_success, Finish.thenRun_success, Part.bind_map, Part.map_bind]
    congr 1
    funext e
    rcases e with f | ⟨more, q⟩ | ⟨q, complaint⟩
    · simp
    · simp [Part.map_map, Function.comp_def, Finish.after_after]
    · simp
  · simp

theorem choice_assoc : (A.choice B).choice C = A.choice (B.choice C) := by
  funext pos
  simp only [choice, Part.bind_assoc]
  congr 1
  funext e
  rcases e with f | ⟨tokens, q⟩ | ⟨q, complaint⟩ <;> simp

theorem empty_seq : empty.seq A = A := by
  funext pos
  rw [seq, empty, Part.bind_some, Finish.thenRun_success]
  exact Part.map_id' Finish.after_nil _

theorem seq_empty : A.seq empty = A := by
  funext pos
  rw [seq]
  conv_rhs => rw [← Part.bind_some_right (A pos)]
  congr 1
  funext e
  rcases e with f | ⟨tokens, q⟩ | ⟨q, complaint⟩
  · rfl
  · simp [empty]
  · rfl

/-- A sequence distributes over a choice behind it. On the other side `A` is run twice, and ends
the same both times. -/
theorem seq_choice : A.seq (B.choice C) = (A.seq B).choice (A.seq C) := by
  funext pos
  simp only [choice, seq, Part.bind_assoc]
  rcases (A pos).eq_none_or_eq_some with hA | ⟨e, hA⟩
  · simp [hA]
  rw [hA, Part.bind_some, Part.bind_some, Part.bind_some]
  rcases e with f | ⟨tokens, q⟩ | ⟨q, complaint⟩
  · simp
  · simp only [Finish.thenRun_success, Part.bind_map, Part.map_bind]
    congr 1
    funext e
    rcases e with f | ⟨more, q⟩ | ⟨q, complaint⟩ <;> simp
  · simp

theorem map_choice (f : Action) : (A.choice B).map f = (A.map f).choice (B.map f) := by
  funext pos
  simp only [map, choice, Part.bind_assoc]
  congr 1
  funext e
  rcases e with f | ⟨tokens, q⟩ | ⟨q, complaint⟩
  · simp
  · rw [Finish.orRun_success, Part.bind_some, Finish.thenRun_success, Part.bind_some]
    -- an action may fault, but it does not fail
    cases f.newTokens tokens <;> rfl
  · simp

theorem hush_seq : (A.seq B).hush = A.hush.seq B.hush := by
  funext pos
  simp only [hush, seq, Part.bind_map, Part.map_bind]
  congr 1
  funext e
  rcases e with f | ⟨tokens, q⟩ | ⟨q, complaint⟩
  · simp
  · simp only [Finish.hushed_success, Finish.thenRun_success, Part.map_map]
    congr 1
    funext e
    rcases e with f | ⟨more, q⟩ | ⟨q, complaint⟩ <;> rfl
  · simp

/-- Dropping the tokens is an action as well. -/
theorem map_discard : A.map discard = A.hush := by
  have hdrop (tokens : List Value) (q : Integral) :
      (discard.newTokens tokens).map (Result.success · q) = .ok (.success [] q) := rfl
  funext pos
  rw [map, hush, ← Part.bind_some_eq_map]
  congr 1
  funext e
  rcases e with f | ⟨tokens, q⟩ | ⟨q, complaint⟩
  · rfl
  · rw [Finish.thenRun_success, hdrop]
    rfl
  · rfl

end Meaning

/-! ### The meaning of a node -/

namespace Node

/-- The ending of a node at each offset. -/
noncomputable def meaning (slots : Slots) (text : List Char) (n : Node) : Meaning := fun pos =>
  ⟨∃ e, Derives slots text (.node n pos) e, fun h => h.choose⟩

theorem mem_meaning {n : Node} {e : Finish} :
    e ∈ n.meaning slots text pos ↔ Derives slots text (.node n pos) e := by
  constructor
  · rintro ⟨h, rfl⟩
    exact h.choose_spec
  · intro h
    exact ⟨⟨e, h⟩, Machine.derives_unique (Exists.choose_spec ⟨e, h⟩) h⟩

@[simp] theorem meaning_empty (id : NodeId) : (Node.empty id).meaning slots text = .empty :=
  funext fun _ => Part.eq_some_iff.mpr (mem_meaning.mpr .empty)

@[simp] theorem meaning_seq (id : NodeId) (l r : Node) :
    (Node.seq id l r).meaning slots text = (l.meaning slots text).seq (r.meaning slots text) := by
  ext pos e
  rw [mem_meaning, Meaning.seq, Part.mem_bind_iff]
  constructor
  · intro h
    cases h with
    | seqStop hl hstop =>
      refine ⟨e, mem_meaning.mpr hl, ?_⟩
      rw [Finish.thenRun_of_isStop _ hstop]
      exact Part.mem_some e
    | seq hl hr => exact ⟨_, mem_meaning.mpr hl, Part.mem_map _ (mem_meaning.mpr hr)⟩
  · rintro ⟨f | ⟨tokens, q⟩ | ⟨q, complaint⟩, hl, he⟩
    · obtain rfl := Part.mem_some_iff.mp he
      exact .seqStop (mem_meaning.mp hl) trivial
    · obtain ⟨e', hr, rfl⟩ := (Part.mem_map_iff _).mp he
      exact .seq (mem_meaning.mp hl) (mem_meaning.mp hr)
    · obtain rfl := Part.mem_some_iff.mp he
      exact .seqStop (mem_meaning.mp hl) trivial

@[simp] theorem meaning_choice (id : NodeId) (l r : Node) :
    (Node.choice id l r).meaning slots text =
      (l.meaning slots text).choice (r.meaning slots text) := by
  ext pos e
  rw [mem_meaning, Meaning.choice, Part.mem_bind_iff]
  constructor
  · intro h
    cases h with
    | choiceLeft hl hno =>
      refine ⟨e, mem_meaning.mpr hl, ?_⟩
      rw [Finish.orRun_of_not_isFailure _ hno]
      exact Part.mem_some e
    | choiceRight hl hr => exact ⟨_, mem_meaning.mpr hl, mem_meaning.mpr hr⟩
  · rintro ⟨f | ⟨tokens, q⟩ | ⟨q, complaint⟩, hl, he⟩
    · obtain rfl := Part.mem_some_iff.mp he
      exact .choiceLeft (mem_meaning.mp hl) (Finish.not_isFailure_fault f)
    · obtain rfl := Part.mem_some_iff.mp he
      exact .choiceLeft (mem_meaning.mp hl) (Finish.not_isFailure_success tokens q)
    · exact .choiceRight (mem_meaning.mp hl) (mem_meaning.mp he)

@[simp] theorem meaning_map (id : NodeId) (child : Node) (f : Action) :
    (Node.map id child f).meaning slots text = (child.meaning slots text).map f := by
  ext pos e
  rw [mem_meaning, Meaning.map, Part.mem_bind_iff]
  constructor
  · intro h
    cases h with
    | mapStop hc hstop =>
      refine ⟨e, mem_meaning.mpr hc, ?_⟩
      rw [Finish.thenRun_of_isStop _ hstop]
      exact Part.mem_some e
    | map hc => exact ⟨_, mem_meaning.mpr hc, Part.mem_some _⟩
  · rintro ⟨f | ⟨tokens, q⟩ | ⟨q, complaint⟩, hc, he⟩
    · obtain rfl := Part.mem_some_iff.mp he
      exact .mapStop (mem_meaning.mp hc) trivial
    · obtain rfl := Part.mem_some_iff.mp he
      exact .map (mem_meaning.mp hc)
    · obtain rfl := Part.mem_some_iff.mp he
      exact .mapStop (mem_meaning.mp hc) trivial

/-- An injection point is its base and then what is in its slot. -/
theorem meaning_splice (id : NodeId) (base : Node) {slot : SlotId} {target : Node}
    (h : slots.target? slot = some target) :
    (Node.splice id base slot).meaning slots text =
      (base.meaning slots text).seq (target.meaning slots text) := by
  rw [← meaning_seq id]
  ext pos e
  rw [mem_meaning, mem_meaning]
  constructor
  · intro hd
    cases hd with
    | spliceStop hb hstop => exact .seqStop hb hstop
    | spliceEmpty hb hnone =>
      rw [h] at hnone
      cases hnone
    | splice hb ht hr =>
      obtain rfl := Option.some.inj (h.symm.trans ht)
      exact .seq hb hr
  · intro hd
    cases hd with
    | seqStop hb hstop => exact .spliceStop hb hstop
    | seq hb hr => exact .splice hb h hr

/-! ### Repetitions -/

/-- The number of a repetition does not matter. -/
theorem meaning_rep_renumber (i j : NodeId) (child : Node) (least : Integral)
    (most : Option Integral) :
    (Node.rep i child least most).meaning slots text =
      (Node.rep j child least most).meaning slots text := by
  ext pos e
  rw [mem_meaning, mem_meaning]
  have hrenumber {i j : NodeId} (h : Derives slots text (.node (.rep i child least most) pos) e) :
      Derives slots text (.node (.rep j child least most) pos) e := by
    cases h with
    | rep hrounds => exact .rep hrounds
  exact ⟨hrenumber, hrenumber⟩

/-- A repetition that may make a round has no ending unless its child has one. -/
theorem exists_mem_meaning_of_rounds {a : Node} {least : Integral} {most : Option Integral}
    {tokens : List Value} {count : Nat} {e : Finish}
    (h : Derives slots text (.rounds a least most tokens pos count) e)
    (hgo : Machine.mayGoOn most count = true) : ∃ e', e' ∈ a.meaning slots text pos := by
  cases h with
  | roundsFull hfull =>
    rw [hgo] at hfull
    cases hfull
  | roundsOver _ hc => exact ⟨_, mem_meaning.mpr hc⟩
  | roundsFault _ hc => exact ⟨_, mem_meaning.mpr hc⟩
  | roundsNext _ hc => exact ⟨_, mem_meaning.mpr hc⟩
  | roundsFree hc => exact ⟨_, mem_meaning.mpr hc⟩
  | roundsSettled _ hc => exact ⟨_, mem_meaning.mpr hc⟩

/-- An optional rule is a choice between the rule and nothing. Where the rule stands still the
offset is kept as it was given, so it is the same as a number only. -/
theorem meaning_optional (id : NodeId) (child : Node) :
    ((Node.rep id child (.num 0) (some (.num 1))).meaning slots text).numbered =
      ((child.meaning slots text).choice .empty).numbered := by
  funext pos
  have hends {e : Finish}
      (h : Derives slots text (.node (.rep id child (.num 0) (some (.num 1))) pos) e) :
      (Node.rep id child (.num 0) (some (.num 1))).meaning slots text pos = .some e :=
    Part.eq_some_iff.mpr (mem_meaning.mpr h)
  rw [Meaning.numbered, Meaning.numbered, Meaning.choice]
  rcases (child.meaning slots text pos).eq_none_or_eq_some with hchild | ⟨e, hchild⟩
  · have hnone : (Node.rep id child (.num 0) (some (.num 1))).meaning slots text pos = .none := by
      refine Part.eq_none_iff.mpr fun e he => ?_
      cases mem_meaning.mp he with
      | rep hrounds =>
        obtain ⟨e', he'⟩ := exists_mem_meaning_of_rounds hrounds rfl
        rw [hchild] at he'
        exact Part.notMem_none e' he'
    rw [hnone, hchild, Part.bind_none]
  have hround : Derives slots text (.node child pos) e :=
    mem_meaning.mp (Part.eq_some_iff.mp hchild)
  rw [hchild, Part.bind_some]
  rcases e with f | ⟨tokens, q⟩ | ⟨q, complaint⟩
  · rw [hends (.optionalFault hround), Finish.orRun_fault]
  · by_cases hq : q.toInt = pos.toInt
    · have hstill : Derives slots text (.node (.rep id child (.num 0) (some (.num 1))) pos) _ :=
        .rep (.roundsSettled rfl hround hq)
      have hsame : Finish.ofSettled (.num 0) (.num 1) ([] ++ tokens) tokens pos 1 =
          .ok (.success tokens pos) := by
        rw [Finish.ofSettled_of_le (by decide) (by decide)]
        simp [Finish.ofRounds]
      rw [hends (hsame ▸ hstill), Finish.orRun_success, Part.map_some, Part.map_some]
      simp only [Finish.numbered, Except.map, Result.moved, Integral.number, hq]
    · rw [hends (.optionalSuccess hround hq), Finish.orRun_success]
  · rw [hends (.optionalFailure hround), Finish.orRun_failure]
    rfl

end Node

namespace Finish

variable {least m : Integral} {tokens round : List Value} {cur : Integral} {count : Nat}

theorem hushed_ofRounds :
    (ofRounds least tokens cur count).hushed = ofRounds least [] cur count := by
  unfold ofRounds
  split_ifs <;> rfl

theorem hushed_ofSettled :
    (ofSettled least m tokens round cur count).hushed = ofSettled least m [] [] cur count := by
  unfold ofSettled Value.repeatItems
  split_ifs
  · rfl
  · rfl
  · show (ofRounds least _ cur _).hushed = ofRounds least [] cur _
    rw [hushed_ofRounds]

theorem eq_of_hushed_eq {e e' : Finish} (h : e'.hushed = e) (hstop : e.IsStop) : e' = e := by
  subst h
  rcases e' with f | ⟨tokens, q⟩ | ⟨q, complaint⟩
  · rfl
  · exact absurd hstop (not_isStop_success _ _)
  · rfl

theorem exists_of_hushed_eq {e : Finish} {q : Integral}
    (h : e.hushed = .ok (.success round q)) :
    round = [] ∧ ∃ tokens, e = .ok (.success tokens q) := by
  rcases e with f | ⟨tokens, q'⟩ | ⟨q', complaint⟩
  · cases h
  · cases h
    exact ⟨rfl, tokens, rfl⟩
  · cases h

end Finish

namespace Derives

variable {child child' : Node} {least : Integral} {most : Option Integral} {tokens : List Value}
variable {cur : Integral} {count : Nat} {e : Finish}
variable (h : child'.meaning slots text = (child.meaning slots text).hush)

include h

theorem hushed (hd : Derives slots text (.node child pos) e) :
    Derives slots text (.node child' pos) e.hushed := by
  rw [← Node.mem_meaning, h]
  exact Part.mem_map _ (Node.mem_meaning.mpr hd)

theorem of_hushed (hd : Derives slots text (.node child' pos) e) (hstop : e.IsStop) :
    Derives slots text (.node child pos) e := by
  rw [← Node.mem_meaning, h, Meaning.hush, Part.mem_map_iff] at hd
  obtain ⟨e', he', hhushed⟩ := hd
  rw [← Finish.eq_of_hushed_eq hhushed hstop]
  exact Node.mem_meaning.mp he'

theorem exists_of_hushed {round : List Value} {q : Integral}
    (hd : Derives slots text (.node child' pos) (.ok (.success round q))) :
    round = [] ∧ ∃ tokens, Derives slots text (.node child pos) (.ok (.success tokens q)) := by
  rw [← Node.mem_meaning, h, Meaning.hush, Part.mem_map_iff] at hd
  obtain ⟨e', he', hhushed⟩ := hd
  obtain ⟨hround, tokens, rfl⟩ := Finish.exists_of_hushed_eq hhushed
  exact ⟨hround, tokens, Node.mem_meaning.mp he'⟩

/-- The rounds of a rule that drops its tokens go along with those of the rule that keeps them. -/
theorem rounds_hushed (hd : Derives slots text (.rounds child least most tokens cur count) e) :
    Derives slots text (.rounds child' least most [] cur count) e.hushed := by
  generalize ht : Task.rounds child least most tokens cur count = t at hd
  induction hd generalizing tokens cur count with
  | roundsFull hfull =>
    cases ht
    rw [Finish.hushed_ofRounds]
    exact .roundsFull hfull
  | roundsOver hgo hc =>
    cases ht
    rw [Finish.hushed_ofRounds]
    exact .roundsOver hgo (hc.hushed h)
  | roundsFault hgo hc =>
    cases ht
    exact .roundsFault hgo (hc.hushed h)
  | roundsNext hgo hc hq _ _ ih =>
    cases ht
    exact .roundsNext hgo (hc.hushed h) hq (ih rfl)
  | roundsFree hc hq =>
    cases ht
    exact .roundsFree (hc.hushed h) hq
  | roundsSettled hgo hc hq =>
    cases ht
    rw [Finish.hushed_ofSettled]
    exact .roundsSettled hgo (hc.hushed h) hq
  | _ => cases ht

/-- And the other way round. -/
theorem exists_of_rounds_hushed
    (hd : Derives slots text (.rounds child' least most [] cur count) e) (tokens : List Value) :
    ∃ e', Derives slots text (.rounds child least most tokens cur count) e' ∧ e'.hushed = e := by
  generalize ht : Task.rounds child' least most [] cur count = t at hd
  induction hd generalizing tokens cur count with
  | roundsFull hfull =>
    cases ht
    exact ⟨_, .roundsFull hfull, Finish.hushed_ofRounds⟩
  | roundsOver hgo hc =>
    cases ht
    exact ⟨_, .roundsOver hgo (hc.of_hushed h trivial), Finish.hushed_ofRounds⟩
  | roundsFault hgo hc =>
    cases ht
    exact ⟨_, .roundsFault hgo (hc.of_hushed h trivial), rfl⟩
  | roundsNext hgo hc hq _ _ ih =>
    cases ht
    obtain ⟨rfl, round, hround⟩ := hc.exists_of_hushed h
    obtain ⟨e', he', hhushed⟩ := ih (tokens ++ round) rfl
    exact ⟨e', .roundsNext hgo hround hq he', hhushed⟩
  | roundsFree hc hq =>
    cases ht
    obtain ⟨rfl, round, hround⟩ := hc.exists_of_hushed h
    exact ⟨_, .roundsFree hround hq, rfl⟩
  | roundsSettled hgo hc hq =>
    cases ht
    obtain ⟨rfl, round, hround⟩ := hc.exists_of_hushed h
    exact ⟨_, .roundsSettled hgo hround hq, Finish.hushed_ofSettled⟩
  | _ => cases ht

end Derives

/-- Dropping the tokens of each round is dropping those of the repetition. -/
theorem Node.meaning_rep_hush {child child' : Node}
    (h : child'.meaning slots text = (child.meaning slots text).hush) (i j : NodeId)
    (least : Integral) (most : Option Integral) :
    (Node.rep i child' least most).meaning slots text =
      ((Node.rep j child least most).meaning slots text).hush := by
  ext pos e
  rw [Meaning.hush, Part.mem_map_iff, mem_meaning]
  constructor
  · intro hd
    cases hd with
    | rep hrounds =>
      obtain ⟨e', he', hhushed⟩ := hrounds.exists_of_rounds_hushed h []
      exact ⟨e', mem_meaning.mpr (.rep he'), hhushed⟩
  · rintro ⟨e', he', rfl⟩
    cases mem_meaning.mp he' with
    | rep hrounds => exact .rep (hrounds.rounds_hushed h)

/-! ### Nodes that run alike -/

/-- Whether two nodes do the same, in a set of slots: on every text and from every offset they end
with the same tokens and offset, the same failure or the same fault, and neither runs for ever
unless the other does. Offsets are the same as numbers. -/
structure Node.RunsLike (slots : Slots) (n m : Node) : Prop where
  ends : ∀ (text : List Char) (pos : Integral) (e : Finish),
    (∃ e', n.RunsTo slots text pos e' ∧ e'.numbered = e) ↔
      ∃ e', m.RunsTo slots text pos e' ∧ e'.numbered = e
  endless : ∀ (text : List Char) (pos : Integral),
    (∀ fuel, evaluate fuel slots text n pos = .outOfFuel) ↔
      ∀ fuel, evaluate fuel slots text m pos = .outOfFuel

/-- A node runs for ever exactly if it has no ending. -/
theorem Node.meaning_eq_none_iff {n : Node} :
    n.meaning slots text pos = .none ↔ ∀ fuel, evaluate fuel slots text n pos = .outOfFuel := by
  rw [Part.eq_none_iff]
  constructor
  · intro hnone fuel
    cases hrun : evaluate fuel slots text n pos with
    | outOfFuel => rfl
    | value r =>
      exact absurd (mem_meaning.mpr (Machine.exists_evaluate_eq_iff.mp ⟨fuel, hrun⟩))
        (hnone (.ok r))
    | raised f =>
      exact absurd (mem_meaning.mpr (Machine.exists_evaluate_eq_iff.mp ⟨fuel, hrun⟩))
        (hnone (.error f))
  · intro hout e he
    obtain ⟨fuel, hrun⟩ := Machine.exists_evaluate_eq_iff.mpr (mem_meaning.mp he)
    rw [hout fuel] at hrun
    cases e <;> cases hrun

/-- Nodes that mean the same run alike. -/
theorem Node.RunsLike.of_meaning {n m : Node}
    (h : ∀ text, (n.meaning slots text).numbered = (m.meaning slots text).numbered) :
    n.RunsLike slots m := by
  have hpos (text : List Char) (pos : Integral) : (n.meaning slots text pos).map Finish.numbered =
      (m.meaning slots text pos).map Finish.numbered := congrFun (h text) pos
  constructor
  · intro text pos e
    simp only [Node.runsTo_iff, ← Node.mem_meaning, ← Part.mem_map_iff, hpos]
  · intro text pos
    have hmapped := congrArg Part.Dom (hpos text pos)
    have hdom : (n.meaning slots text pos).Dom = (m.meaning slots text pos).Dom := hmapped
    rw [← Node.meaning_eq_none_iff, ← Node.meaning_eq_none_iff, Part.eq_none_iff',
      Part.eq_none_iff', hdom]

end LeafGrammar
