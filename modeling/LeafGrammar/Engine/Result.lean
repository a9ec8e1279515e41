import LeafGrammar.Value.Show

/-!
# Results

Running a rule succeeds with tokens and the next offset, or fails at an offset,
perhaps with a complaint. A failure is an answer: it makes a choice try its next
alternative. A fault is none: it ends the whole run.
-/

namespace LeafGrammar

/-- Why a rule failed, where there is more to say than the offset. -/
inductive Complaint where
  /-- A leaf was tried at the end of the text or after it. -/
  | pastEnd
  /-- A repetition ended after `count` rounds, fewer than `least`. -/
  | tooFew (least : Integral) (count : Nat)
deriving DecidableEq, Repr

/-- The words for a complaint. -/
def Complaint.text : Complaint → String
  | .pastEnd => "attempted to parse past the end of input"
  | .tooFew least count =>
    "expected at least " ++ least.text ++ " repetition(s), matched " ++ toString count

/-- What a rule answers. -/
inductive Result where
  | success (tokens : List Value) (pos : Integral)
  | failure (pos : Integral) (complaint : Option Complaint)

namespace Result

/-- The shown form of a result. -/
def shown : Result → Except Fault String
  | .success tokens pos => do
    let ts ← Value.shownList tokens
    let at_ ← pos.shown
    return "Success(tokens=" ++ ts ++ ", pos=" ++ at_ ++ ")"
  | .failure pos complaint => do
    let at_ ← pos.shown
    let message := match complaint with
      | none => "None"
      | some c => Text.quoted c.text
    return "Failure(pos=" ++ at_ ++ ", message=" ++ message ++ ")"

end Result

/-- How a computation ends: with a value, with a fault, or not within the steps it
was given. -/
inductive Outcome (α : Type) where
  | value (a : α)
  | raised (fault : Fault)
  | outOfFuel

end LeafGrammar
