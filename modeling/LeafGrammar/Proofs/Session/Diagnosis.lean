import LeafGrammar.Proofs.Diagnostic
import LeafGrammar.Proofs.Engine.Offsets
import LeafGrammar.Proofs.Session.Parsing

/-!
# What a failed parse reports

A parse failure is an action's own, or it is made from the result of the run. One that is
made from the result names an offset of the text, and what it says of the offset is true:
there is a character that did not match, or the end of the text, or the place where a
repetition of the rule stopped too early, or input that is left over. Exactly one of these is
the case (`Session.parse_failure_diagnosed`). So the failure can be rendered.

The invariant is `Derives.accounts`: whatever choices and repetitions a failure goes through,
its complaint was right where it came from, and nothing changes it on its way.
-/

namespace LeafGrammar

variable {slots : Slots} {root : Node} {text : List Char}

/-! ### What a rule complains of -/

/-- What a failure at the offset `q` says is true. Without a complaint there is a character at
the offset; a leaf complains of the end at the end only; a complaint about too few rounds comes
from a repetition that the rule can come to and that asks for more. -/
def Complaint.Holds (slots : Slots) (root : Node) (text : List Char) (q : Integral) :
    Option Complaint → Prop
  | none => q.toInt < text.length
  | some .pastEnd => text.length ≤ q.toInt
  | some (.tooFew least count) =>
    (count : Int) < least.toInt ∧
      ∃ id child most, root.Reaches slots (.rep id child least most)

/-- The ending, if it is a failure, says what is true. -/
def Finish.Accounts (slots : Slots) (root : Node) (text : List Char) : Finish → Prop
  | .ok (.failure q c) => Complaint.Holds slots root text q c
  | _ => True

/-- The task is one of a node that the root can come to. -/
def Task.IsWithin (slots : Slots) (root : Node) : Task → Prop
  | .node n _ => root.Reaches slots n
  | .rounds child least most _ _ _ => ∃ id, root.Reaches slots (.rep id child least most)

theorem leafResult_accounts (p : Pattern) (pos : Integral) :
    Finish.Accounts slots root text (.ok (leafResult p text pos)) := by
  unfold leafResult
  simp only
  split
  · rename_i hend
    obtain ⟨hempty, hpos⟩ : Text.suffixFrom text pos.toInt = [] ∧ 0 ≤ pos.toInt := by
      simpa using hend
    obtain ⟨k, hk⟩ := Int.eq_ofNat_of_zero_le hpos
    rw [hk] at hempty
    show (text.length : Int) ≤ pos.toInt
    have := List.drop_eq_nil_iff.mp hempty
    omega
  · rename_i hin
    split
    · show pos.toInt < text.length
      by_contra hle
      obtain ⟨k, hk⟩ := Int.eq_ofNat_of_zero_le (a := pos.toInt) (by omega)
      have hempty : Text.suffixFrom text pos.toInt = [] := by
        rw [hk]
        exact List.drop_eq_nil_iff.mpr (by omega)
      exact hin (by simp [hempty]; omega)
    · trivial

namespace Finish

variable {e : Finish}

theorem Accounts.after (tokens : List Value) (he : e.Accounts slots root text) :
    (e.after tokens).Accounts slots root text := by
  rcases e with f | ⟨more, q⟩ | ⟨q, c⟩ <;> exact he

theorem ofRounds_accounts {id : NodeId} {child : Node} {least : Integral} {most : Option Integral}
    (hr : root.Reaches slots (.rep id child least most)) (tokens : List Value) (cur : Integral)
    (count : Nat) : (ofRounds least tokens cur count).Accounts slots root text := by
  unfold ofRounds
  split
  · rename_i hfew
    split
    · exact ⟨hfew, id, child, most, hr⟩
    · trivial
  · trivial

theorem ofSettled_accounts {id : NodeId} {child : Node} {least m : Integral}
    (hr : root.Reaches slots (.rep id child least (some m))) (tokens round : List Value)
    (cur : Integral) (count : Nat) :
    (ofSettled least m tokens round cur count).Accounts slots root text := by
  unfold ofSettled
  cases Value.repeatItems round (m.toInt - count) with
  | ok more => exact ofRounds_accounts hr ..
  | error f => trivial

end Finish

/-- **A failure says what is true**, wherever below the root it comes from. -/
theorem Derives.accounts {t : Task} {e : Finish} (h : Derives slots text t e)
    (ht : t.IsWithin slots root) : e.Accounts slots root text := by
  induction h with
  | leaf => exact leafResult_accounts ..
  | empty => trivial
  | seqStop _ _ ih => exact ih (ht.part (by simp [Node.parts]))
  | seq _ _ _ ihr => exact (ihr (ht.part (by simp [Node.parts]))).after _
  | choiceLeft _ _ ih => exact ih (ht.part (by simp [Node.parts]))
  | choiceRight _ _ _ ihr => exact ihr (ht.part (by simp [Node.parts]))
  | rep _ ih => exact ih ⟨_, ht⟩
  | roundsFull _ =>
    obtain ⟨id, hr⟩ := ht
    exact Finish.ofRounds_accounts hr ..
  | roundsOver _ _ _ =>
    obtain ⟨id, hr⟩ := ht
    exact Finish.ofRounds_accounts hr ..
  | roundsFault _ _ _ => trivial
  | roundsNext _ _ _ _ _ ihr => exact ihr ht
  | roundsFree _ _ _ => trivial
  | roundsSettled _ _ _ _ =>
    obtain ⟨id, hr⟩ := ht
    exact Finish.ofSettled_accounts hr ..
  | mapStop _ _ ih => exact ih (ht.part (by simp [Node.parts]))
  | @map id child action pos q tokens _ _ =>
    cases action.newTokens tokens <;> trivial
  | spliceStop _ _ ih => exact ih (ht.part (by simp [Node.parts]))
  | spliceEmpty _ _ _ => trivial
  | splice _ hslot _ _ iht => exact (iht (ht.child (by simp [Node.children, hslot]))).after _

/-! ### What parsing reports -/

/-- What can be wrong with a text. -/
inductive Diagnosis where
  /-- No rule goes on with the character at the offset. -/
  | mismatch
  /-- The text ends where more of it was needed. -/
  | pastEnd
  /-- A repetition stopped too early. -/
  | tooFew
  /-- The rule is done before the end of the text. -/
  | leftover
deriving DecidableEq

/-- The diagnosis holds at the offset `k`, and `detail` says so. -/
def Diagnosis.Fits (slots : Slots) (root : Node) (text : List Char) (k : Nat)
    (detail : Option String) : Diagnosis → Prop
  | .mismatch => detail = none ∧ k < text.length
  | .pastEnd => detail = some "attempted to parse past the end of input" ∧ k = text.length
  | .tooFew => k ≤ text.length ∧ ∃ (least : Integral) (count : Nat),
      detail = some ("expected at least " ++ least.text ++ " repetition(s), matched " ++
        toString count) ∧ (count : Int) < least.toInt ∧
          ∃ id child most, root.Reaches slots (.rep id child least most)
  | .leftover => detail = some "Unconsumed input" ∧ k < text.length

namespace Diagnosis

variable {k : Nat} {detail : Option String} {d d' : Diagnosis}

/-- The first character of the words for a diagnosis. -/
def initial : Diagnosis → Option Char
  | .mismatch => none
  | .pastEnd => some 'a'
  | .tooFew => some 'e'
  | .leftover => some 'U'

theorem Fits.head?_eq (h : d.Fits slots root text k detail) :
    (detail.bind fun words => words.toList.head?) = d.initial := by
  cases d with
  | mismatch =>
    rw [h.1]
    rfl
  | pastEnd =>
    rw [h.1]
    rfl
  | tooFew =>
    obtain ⟨-, least, count, hwords, -⟩ := h
    rw [hwords]
    simp [initial]
  | leftover =>
    rw [h.1]
    rfl

/-- The words tell the diagnoses apart. -/
theorem Fits.unique (h : d.Fits slots root text k detail) (h' : d'.Fits slots root text k detail) :
    d = d' := by
  have hinitial : d.initial = d'.initial := h.head?_eq.symm.trans h'.head?_eq
  cases d <;> cases d' <;> first | rfl | cases hinitial

theorem Fits.le_length (h : d.Fits slots root text k detail) : k ≤ text.length := by
  cases d with
  | mismatch => exact Nat.le_of_lt h.2
  | pastEnd => exact Nat.le_of_eq h.2
  | tooFew => exact h.1
  | leftover => exact Nat.le_of_lt h.2

/-- The words do not start with a blank. -/
theorem Fits.starts (h : d.Fits slots root text k detail) (words : String)
    (hwords : detail = some words) :
    ∃ c, words.toList.head? = some c ∧ Text.isMargin c = false := by
  have hhead := h.head?_eq
  rw [hwords, Option.bind_some] at hhead
  cases d with
  | mismatch =>
    rw [h.1] at hwords
    cases hwords
  | pastEnd => exact ⟨_, hhead, by decide⟩
  | tooFew => exact ⟨_, hhead, by decide⟩
  | leftover => exact ⟨_, hhead, by decide⟩

end Diagnosis

/-- A machine that comes to a state whose move raises a fault raises it. -/
theorem Machine.Onward.run_raised {st st' : Machine.State} {f : Fault}
    (h : Machine.Onward slots text st st') (hf : Machine.step slots text st' = .raised f) :
    ∃ fuel, Machine.run slots text fuel st = .raised f := by
  induction h using Relation.ReflTransGen.head_induction_on with
  | refl => exact ⟨1, by rw [Machine.run, hf]⟩
  | head hstep _ ih =>
    obtain ⟨fuel, hrun⟩ := ih
    exact ⟨fuel + 1, by rw [Machine.run, hstep]; exact hrun⟩

namespace Session

variable {s : Session} {r : Rule} {fuel : Nat} {failure : ParseFailure}

/-- The run of the rule on the text comes to an action that faults so. -/
def RaisedByAction (s : Session) (r : Rule) (text : List Char) (f : Fault) : Prop :=
  ∃ st action, Machine.Onward s.slots text (.visit r.node (.num 0) []) st ∧
    st.AtFaultingAction f action

/-- Then this is how the rule ends. -/
theorem RaisedByAction.derives {f : Fault} (h : s.RaisedByAction r text f) :
    Derives s.slots text (.node r.node (.num 0)) (.error f) := by
  obtain ⟨st, action, hon, hfault⟩ := h
  have hstep : Machine.step s.slots text st = .raised f := by
    match st, hfault with
    | .give (.success tokens pos) (.map _ :: stack), ⟨rfl, hf⟩ =>
      simp only [Machine.step, Machine.resume, hf]
  exact Machine.exists_evaluate_eq_iff.mp (hon.run_raised hstep)

/-- A parse failure is an action's own, or is concluded from the result of the run. -/
theorem parse_raised_parse (h : (s.parse fuel r text).1 = .raised (.parse failure)) :
    s.RaisedByAction r text (.parse failure) ∨
      ∃ result, Derives s.slots text (.node r.node (.num 0)) (.ok result) ∧
        conclusion text result = .error (.parse failure) := by
  rcases s.parse_cases r text with ⟨f, hf, hparse⟩ | ⟨j, -, hparse⟩
  · rw [hparse fuel] at h
    cases h
    exact absurd rfl (hf failure)
  · rw [hparse fuel] at h
    cases hrun : (evaluateIn fuel s.slots text r.node (.num 0) j).1 with
    | outOfFuel =>
      rw [hrun] at h
      cases h
    | raised f =>
      rw [hrun] at h
      cases h
      left
      rcases evaluateIn_raised hrun with hf | ⟨st, hon, hstep⟩
      · cases hf
      · rcases Machine.step_raised hstep with hf | hf | ⟨action, hfault⟩ | ⟨-, hf⟩
        · cases hf
        · cases hf
        · exact ⟨st, action, hon, hfault⟩
        · cases hf
    | value result =>
      rw [hrun] at h
      exact .inr ⟨result, Machine.exists_evaluate_eq_iff.mp ⟨fuel, evaluateIn_value hrun⟩,
        Outcome.ofExcept_injective h⟩

/-- What is concluded from a result that is no success on the whole text. -/
theorem conclusion_error {result : Result}
    (h : conclusion text result = .error (.parse failure)) :
    failure.source = some text ∧ failure.pos = some result.offset ∧
      ((∃ tokens q, result = .success tokens q ∧ q.toInt ≠ text.length ∧
          failure.detail = some "Unconsumed input") ∨
        ∃ q c, result = .failure q c ∧ failure.detail = c.map Complaint.text) := by
  rcases result with ⟨tokens, q⟩ | ⟨q, c⟩
  · by_cases hq : q.toInt = text.length
    · rw [conclusion_success hq] at h
      cases h
    · have hrest : conclude text (.success tokens q) = .error _ := if_neg hq
      rw [conclusion, hrest] at h
      cases h
      exact ⟨rfl, rfl, .inl ⟨tokens, q, rfl, hq, rfl⟩⟩
  · cases h
    exact ⟨rfl, rfl, .inr ⟨q, c, rfl, rfl⟩⟩

/-- A conclusion from a result that is derived has its diagnosis. -/
theorem exists_diagnosis {slots : Slots} {root : Node} {result : Result}
    (hd : Derives slots text (.node root (.num 0)) (.ok result))
    (hc : conclusion text result = .error (.parse failure)) :
    ∃ (q : Integral) (k : Nat), failure.source = some text ∧ failure.pos = some q ∧
      q.toInt = k ∧ ∃ d : Diagnosis, d.Fits slots root text k failure.detail := by
  obtain ⟨hsource, hpos, hdetail⟩ := conclusion_error hc
  have hahead : IsAhead text (.num 0) result.offset := hd.isAhead
  have hle := hahead.le
  have hend := hahead.le_end
  simp only [Integral.toInt_num] at hle hend
  obtain ⟨k, hk⟩ := Int.eq_ofNat_of_zero_le hle
  refine ⟨result.offset, k, hsource, hpos, hk, ?_⟩
  rcases hdetail with ⟨tokens, q, rfl, hq, hwords⟩ | ⟨q, c, rfl, hwords⟩
  · simp only [Result.offset] at hk hend
    exact ⟨.leftover, hwords, by omega⟩
  · simp only [Result.offset] at hk hend
    have hwithin : Task.IsWithin slots root (.node root (.num 0)) := Relation.ReflTransGen.refl
    have haccounts : Complaint.Holds slots root text q c := hd.accounts hwithin
    cases c with
    | none =>
      have hlt : q.toInt < text.length := haccounts
      exact ⟨.mismatch, hwords, by omega⟩
    | some complaint =>
      cases complaint with
      | pastEnd =>
        have hge : text.length ≤ q.toInt := haccounts
        exact ⟨.pastEnd, hwords, by omega⟩
      | tooFew least count =>
        obtain ⟨hfew, hrep⟩ := haccounts
        exact ⟨.tooFew, by omega, least, count, hwords, hfew, hrep⟩

/-- **A failed parse reports what is the case.** A parse failure that no action raised has the text
as its source and an offset in it, and exactly one diagnosis. It can be rendered, but for a text
so long that its offsets have too many digits to be written: the headline names the character at
the offset, or the end of the text if the offset is there; the text stands on one line; and from
the caret's column on the line shows the text from the offset on. -/
theorem parse_failure_diagnosed (h : (s.parse fuel r text).1 = .raised (.parse failure))
    (hown : ¬ s.RaisedByAction r text (.parse failure)) :
    ∃ (q : Integral) (k : Nat), failure.source = some text ∧ failure.pos = some q ∧ q.toInt = k ∧
      (∃! d : Diagnosis, d.Fits s.slots r.node text k failure.detail) ∧
      (text.length + 1 < 10 ^ digitLimit →
        ∃ (place : String) (line : List Char) (column : Nat),
          (k < text.length ↔ ∃ c, text[k]? = some c ∧ place = "token " ++
            Text.quoted (String.singleton c) ++ " at position " ++
              toString ((k + 1 : Nat) : Int)) ∧
          (k = text.length ↔
            place = "end of input at position " ++ toString ((k + 1 : Nat) : Int)) ∧
          line = oneLine text ∧ '\n' ∉ line ∧ column = (oneLine (text.take k)).length ∧
          line.drop column = oneLine (text.drop k) ∧
          failure.headline = .ok (ParseFailure.headlineAt failure.detail place) ∧
          failure.render = .ok (ParseFailure.headlineAt failure.detail place ++ "\n\n" ++
            String.ofList (line ++ '\n' :: (List.replicate column ' ' ++ ['^'])) ++ "\n")) := by
  rcases parse_raised_parse h with hraised | ⟨result, hd, hc⟩
  · exact absurd hraised hown
  · obtain ⟨q, k, hsource, hpos, hk, d, hfits⟩ := exists_diagnosis hd hc
    refine ⟨q, k, hsource, hpos, hk, ⟨d, hfits, fun d' hd' => hd'.unique hfits⟩, fun hlen => ?_⟩
    have hle : k ≤ text.length := hfits.le_length
    have hdigits : k + 1 < 10 ^ digitLimit := by omega
    have hdetail := ParseFailure.detail?_eq hfits.starts
    obtain ⟨hchar, hend⟩ := Text.placeName_iff hle
    exact ⟨Text.placeName text k, oneLine text, caretColumn text k, hchar, hend, rfl,
      newline_notMem_oneLine text, caretColumn_eq hle, drop_caretColumn hle,
      ParseFailure.headline_eq hsource hpos hk hdetail hdigits,
      ParseFailure.render_eq hsource hpos hk hdetail hdigits⟩

/-- Three letters or line breaks at least. -/
def threeMarks : Rule where
  id := 4
  node := .rep 4 (.choice 3 (.map 1 (.leaf 0 (.ofRegex "a" (.one (.ofChar 'a') .exact))) discard)
    (.leaf 2 (.ofRegex "\\n" (.one (.ofChar '\n') .exact)))) (.num 3) none
  chain := 0

theorem parse_failure_diagnosed_threeMarks :
    ∃ failure : ParseFailure,
      ((new (Journal.new false "WARNING")).parse 40 threeMarks ['a', '\n', 'b']).1 =
          .raised (.parse failure) ∧
        ¬ (new (Journal.new false "WARNING")).RaisedByAction threeMarks ['a', '\n', 'b']
          (.parse failure) ∧
        (∃! d : Diagnosis, d.Fits #[] threeMarks.node ['a', '\n', 'b'] 2 failure.detail) ∧
        failure.render = .ok ("expected at least 3 repetition(s), matched 2 (unexpected token " ++
          "'b' at position 3)\n\na\\nb\n   ^\n") := by
  have hrun : ((new (Journal.new false "WARNING")).parse 40 threeMarks ['a', '\n', 'b']).1 =
      .raised (.parse ⟨some "expected at least 3 repetition(s), matched 2", some (.num 2),
        some ['a', '\n', 'b']⟩) := rfl
  have hends : Derives #[] ['a', '\n', 'b'] (.node threeMarks.node (.num 0))
      (.ok (.failure (.num 2) (some (.tooFew (.num 3) 2)))) :=
    Machine.exists_evaluate_eq_iff.mp ⟨40, rfl⟩
  have hown (f : Fault) : ¬ (new (Journal.new false "WARNING")).RaisedByAction threeMarks
      ['a', '\n', 'b'] f := by
    intro hraised
    cases Machine.derives_unique hends hraised.derives
  obtain ⟨q, k, -, hq, hk, hd, hrender⟩ := parse_failure_diagnosed hrun (hown _)
  cases hq
  obtain rfl : k = 2 := (Int.ofNat.inj hk).symm
  have hshort : 4 < 10 ^ digitLimit :=
    Nat.lt_of_lt_of_le (by decide : 4 < 10 ^ 1) (Nat.pow_le_pow_right (by decide) (by decide))
  obtain ⟨place, line, column, hplace, -, rfl, -, rfl, -, -, hrender⟩ := hrender hshort
  obtain ⟨c, hc, rfl⟩ := hplace.mp (by decide)
  cases hc
  exact ⟨_, hrun, hown _, hd, hrender⟩

end Session

end LeafGrammar
