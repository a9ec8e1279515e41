import LeafGrammar.Engine.Trace
import LeafGrammar.Pattern.Reader

/-!
# Sessions and rules

A session is where rules are built. Every rule belongs to a chain, and a chain
has one slot: a leaf or an empty rule starts a chain, and every rule made from a
rule stays on that rule's chain. The session keeps the rules it has issued, the
slots of the chains, which rules have passed the check, and the journal.

Building steps run in `Build`: a step that faults leaves the session as far as
it had come, and that never changes a rule, node or slot that was there before.
-/

namespace LeafGrammar

/-- A rule: its number, what it says and the chain it is on. -/
structure Rule where
  id : Nat
  node : Node
  chain : SlotId

/-- The rules built so far and what is known about them. -/
structure Session where
  /-- The rules in the order of issue; rule number `i` stands at index `i`. -/
  rules : Array Rule
  /-- The slot of each chain. -/
  slots : Slots
  /-- Whether rule number `i` has passed the check. -/
  passed : Array Bool
  journal : Journal

namespace Session

/-- A session with no rules. -/
def new (journal : Journal) : Session := ⟨#[], #[], #[], journal⟩

/-- Has the rule passed the check before? -/
def hasPassed (s : Session) (r : Rule) : Bool := (s.passed[r.id]?).getD false

/-- Note that the rule has passed the check. -/
def markPassed (s : Session) (r : Rule) : Session :=
  { s with passed := s.passed.setIfInBounds r.id true }

/-- Is the slot of the rule's chain filled? -/
def isFilled (s : Session) (r : Rule) : Bool := (s.slots.target? r.chain).isSome

end Session

/-- A building step. -/
abbrev Build := ExceptT Fault (StateM Session)

namespace Build

/-- Stop with a grammar fault. -/
def refuse {α : Type} (cause : GrammarFault) : Build α := throw (.grammar cause)

/-- Issue a rule on a chain. Its node is made for its number. -/
def issue (node : NodeId → Node) (chain : SlotId) : Build Rule := do
  let s ← get
  let id := s.rules.size
  let rule : Rule := ⟨id, node id, chain⟩
  set { s with rules := s.rules.push rule, passed := s.passed.push false }
  return rule

/-- Issue a rule on a chain of its own, with an empty slot. -/
def issueFresh (node : NodeId → Node) : Build Rule := do
  let s ← get
  let chain := s.slots.size
  set { s with slots := s.slots.push none }
  issue node chain

end Build

end LeafGrammar
