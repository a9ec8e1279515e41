import LeafGrammar.Session.Basic

/-!
# Building rules

The steps that make rules. What a caller hands over is checked here, and the
texts that a complaint would need are made out before the check, so an integer
with too many digits is reported as such even where it would have been allowed.
-/

namespace LeafGrammar

/-- What a combinator is given: a rule, or a value that may be a pattern. -/
inductive Operand where
  | rule (r : Rule)
  | value (v : Value)

/-- What a token action is given as: an action, or some other value. -/
inductive Mapper where
  | action (a : Action)
  | value (v : Value)

/-- The action that drops all tokens. -/
def discard : Action where
  name := "_discard"
  apply _ := .ok (.list [])

namespace Build

/-- A leaf for a pattern, on a chain of its own. -/
def leafFor (p : Pattern) : Build Rule := issueFresh (.leaf · p)

/-- A leaf for what has been read from a text: the pattern, or why the text is none. -/
def leafRead (source : String) : Except PatternFault Pattern → Build Rule
  | .ok p => leafFor p
  | .error (.offence e) => refuse (.badPattern source e)
  | .error .flagConflict => throw (.value .flagConflict)

/-- A leaf for the pattern that a text is. -/
def leaf (source : String) (flags : Pattern.Flags) : Build Rule :=
  leafRead source (Pattern.read source flags)

/-- A leaf for a value, which must be a text. -/
def leafOf (v : Value) (flags : Pattern.Flags) : Build Rule :=
  match v with
  | .text source => leaf source flags
  | _ => refuse (.patternKind v.kind)

/-- The rule that always succeeds with no tokens, on a chain of its own. -/
def empty : Build Rule := issueFresh (.empty ·)

/-- The rule that an operand stands for: itself, or a leaf for a text. -/
def coerce : Operand → Build Rule
  | .rule r => return r
  | .value (.text source) => leaf source .none
  | .value v => throw (.kind (.operand v.kind))

/-- A rule made from `r`, on its chain. -/
def derive (r : Rule) (node : NodeId → Node) : Build Rule := issue node r.chain

/-- `r`, then the operand. -/
def andThen (r : Rule) (other : Operand) : Build Rule := do
  let second ← coerce other
  derive r (.seq · r.node second.node)

/-- `r`, or else the operand. -/
def orElse (r : Rule) (other : Operand) : Build Rule := do
  let second ← coerce other
  derive r (.choice · r.node second.node)

/-- One operand, then the other, on the chain of the first. -/
def both (left right : Operand) : Build Rule := do
  let first ← coerce left
  andThen first right

/-- One operand, or else the other, on the chain of the first. -/
def either (left right : Operand) : Build Rule := do
  let first ← coerce left
  orElse first right

/-- A lower bound: an integral that is not negative. -/
def leastOf (v : Value) : Build Integral := do
  let shown ← (v.shown : Except Fault String)
  match v.integral? with
  | some n => if 0 ≤ n.toInt then return n else refuse (.minimum shown)
  | none => refuse (.minimum shown)

/-- An upper bound: absent, or an integral not below the lower bound. -/
def mostOf (least : Integral) (v : Value) : Build (Option Integral) := do
  let low ← (least.shown : Except Fault String)
  let shown ← (v.shown : Except Fault String)
  match v, v.integral? with
  | .null, _ => return none
  | _, some n => if least.toInt ≤ n.toInt then return some n else refuse (.maximum low shown)
  | _, none => refuse (.maximum low shown)

/-- `r` between `least` and `most` times. -/
def rep (r : Rule) (least most : Value) : Build Rule := do
  let low ← leastOf least
  let high ← mostOf low most
  derive r (.rep · r.node low high)

/-- `r` any number of times. -/
def star (r : Rule) : Build Rule := rep r (.int 0) .null

/-- `r` once or more. -/
def plus (r : Rule) : Build Rule := rep r (.int 1) .null

/-- `r` once or not at all. -/
def optional (r : Rule) : Build Rule := rep r (.int 0) (.int 1)

/-- `r` with its tokens given to an action. -/
def map (r : Rule) (f : Mapper) : Build Rule :=
  match f with
  | .action a => derive r (.map · r.node a)
  | .value _ => refuse .notCallable

/-- `r` without its tokens. -/
def dropTokens (r : Rule) : Build Rule := map r (.action discard)

/-- `r`, then whatever is injected on its chain. -/
def markInjection (r : Rule) : Build Rule := derive r (.splice · r.node r.chain)

/-- Resolve the injection point of the rule's chain to the rule. A chain's slot is
filled once. -/
def inject (r : Rule) : Build Rule := do
  let s ← get
  match s.slots.target? r.chain with
  | some _ => refuse .slotTaken
  | none =>
    set { s with slots := s.slots.setIfInBounds r.chain (some r.node) }
    return r

end Build

end LeafGrammar
