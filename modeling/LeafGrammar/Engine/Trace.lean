import LeafGrammar.Engine.Machine
import LeafGrammar.Journal

/-!
# The trace of a run

While tracing is on, the machine reports every node it visits and every result
it hands to a frame. A report is tied to the state that the machine is in, and
the traced run makes the same moves as the plain one. The label of a visited
node is made out in any case; everything else is made out only if some handler
takes it. Making out either may fail, and then the run ends with that fault.
-/

namespace LeafGrammar

namespace Machine

/-- One report. -/
inductive Record where
  | visit (node : Node) (pos : Integral)
  | result (r : Result)

/-- What the machine reports in a state. The result of the whole run is not
reported: no frame waits for it. -/
def State.record? : State → Option Record
  | .visit node pos _ => some (.visit node pos)
  | .give result (_ :: _) => some (.result result)
  | .give _ [] => none

/-- The text of a record. -/
def Record.text : Record → Except Fault String
  | .visit node pos => do
    let label ← node.label
    let at_ ← pos.shown
    return label ++ " @" ++ at_
  | .result r => do return "  -> " ++ (← r.shown)

/-- Write a record to the journal. -/
def Record.report (record : Record) (j : Journal) : Except Fault Journal := do
  if let .visit node _ := record then
    let _ ← node.label
  if j.wants .trace then
    return j.write .trace "evaluate" (← record.text)
  else return j

/-- Report what there is to report in a state. -/
def State.report (s : State) (j : Journal) : Except Fault Journal :=
  match s.record? with
  | none => .ok j
  | some record => record.report j

/-- Moves until the machine stops, each state reported before its move. -/
def runTraced (slots : Slots) (text : List Char) :
    Nat → State → Journal → Outcome Result × Journal
  | 0, _, j => (.outOfFuel, j)
  | fuel + 1, s, j =>
    match s.report j with
    | .error f => (.raised f, j)
    | .ok j =>
      match step slots text s with
      | .next s => runTraced slots text fuel s j
      | .done r => (.value r, j)
      | .raised f => (.raised f, j)

end Machine

/-- Run a node on a text from an offset, with a trace if the journal asks for it
at the start. -/
def evaluateIn (fuel : Nat) (slots : Slots) (text : List Char) (node : Node) (pos : Integral)
    (j : Journal) : Outcome Result × Journal :=
  if j.trace then Machine.runTraced slots text fuel (.visit node pos []) j
  else (evaluate fuel slots text node pos, j)

end LeafGrammar
