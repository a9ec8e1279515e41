import LeafGrammar.Diagnostic
import LeafGrammar.Session.Builder
import LeafGrammar.Session.Check

/-!
# Running and parsing

`Session.run` checks a rule and runs it from an offset. `Session.parse` runs it
on a whole text and turns a failure, or input left over, into a parse failure.
Both take the number of moves the machine may make. The session that comes back
differs from the given one in the verdict of the check and the journal only.
-/

namespace LeafGrammar

namespace Session

/-- Run a node from an offset, unchecked, with a trace if the journal asks for
it. -/
def evaluate (s : Session) (fuel : Nat) (node : Node) (text : List Char) (pos : Integral) :
    Outcome Result × Session :=
  let (outcome, journal) := evaluateIn fuel s.slots text node pos s.journal
  (outcome, { s with journal := journal })

/-- A start offset: an integral that is not negative. -/
def startOf (v : Value) : Except Fault Integral := do
  let shown ← v.shown
  match v.integral? with
  | some n => if 0 ≤ n.toInt then return n else throw (.grammar (.startOffset shown))
  | none => throw (.grammar (.startOffset shown))

/-- Check the rule and run it from an offset. -/
def run (s : Session) (fuel : Nat) (r : Rule) (text : List Char) (pos : Value) :
    Outcome Result × Session :=
  match startOf pos with
  | .error f => (.raised f, s)
  | .ok start =>
    match Build.check r s with
    | (.error f, s) => (.raised f, s)
    | (.ok (), s) => s.evaluate fuel r.node text start

/-- Write a message about parsing. -/
def note (s : Session) (message : String) : Session :=
  { s with journal := s.journal.write .debug "parse" message }

/-- What parsing makes of a result: the tokens if the whole text is used up, or
the parse failure and a message about it. -/
def conclude (text : List Char) : Result → Except (ParseFailure × String) (List Value)
  | .failure pos complaint =>
    let detail := complaint.map Complaint.text
    .error (⟨detail, some pos, some text⟩,
      "failed at " ++ pos.text ++ ": " ++ detail.getD "None")
  | .success tokens pos =>
    if pos.toInt = text.length then .ok tokens
    else .error (⟨some "Unconsumed input", some pos, some text⟩,
      "stopped at " ++ pos.text ++ " of " ++ toString text.length)

/-- Parse a whole text. -/
def parse (s : Session) (fuel : Nat) (r : Rule) (text : List Char) :
    Outcome (List Value) × Session :=
  match r.node.label with
  | .error f => (.raised f, s)
  | .ok label =>
    let s := s.note ("parse " ++ label ++ " over " ++ toString text.length ++ " chars")
    let (outcome, s) := s.run fuel r text (.int 0)
    match outcome with
    | .outOfFuel => (.outOfFuel, s)
    | .raised f => (.raised f, s)
    | .value result =>
      match conclude text result with
      | .ok tokens => (.value tokens, s)
      | .error (failure, message) => (.raised (.parse failure), s.note message)

end Session

end LeafGrammar
