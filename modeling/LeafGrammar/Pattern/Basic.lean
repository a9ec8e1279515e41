import LeafGrammar.Pattern.CharSet

/-!
# Patterns

To the engine a pattern is whatever matches texts (`Pattern`). The patterns that can be
read from a text are regular expressions with groups, back references, look-around and
three sorts of loops. The letters' case, the meaning of the dot and the anchors
are settled when a pattern is read, so the expression itself has no flags.
-/

namespace LeafGrammar.Pattern

/-- How a loop chooses its number of rounds. -/
inductive Greed where
  /-- As many as possible, giving some up if the rest fails. -/
  | greedy
  /-- As few as possible. -/
  | reluctant
  /-- As many as possible, giving none up. -/
  | possessive
deriving DecidableEq, Repr

/-- A condition on a place in the text. -/
inductive Anchor where
  | textStart
  | lineStart
  | textEnd
  /-- At the end, or before a line feed that ends the text. -/
  | lastLine
  | lineEnd
  /-- Between a word character and none, or not so if negated. -/
  | wordEdge (negated ascii : Bool)
deriving DecidableEq, Repr

/-- The group that a back reference names. -/
inductive GroupRef where
  | number (n : Nat)
  | name (s : List Char)
deriving DecidableEq, Repr

/-- A regular expression. A list of alternatives is a chain of `alt` that ends in
`never`. -/
inductive Regex where
  | empty
  /-- Nothing matches. -/
  | never
  | one (set : CharSet) (caseness : Caseness)
  | seq (first second : Regex)
  | alt (first others : Regex)
  | loop (body : Regex) (least : Nat) (most : Option Nat) (greed : Greed)
  | group (index : Nat) (body : Regex)
  | atomic (body : Regex)
  | look (behind negated : Bool) (body : Regex)
  /-- The text of a group once more; `position` is where the pattern says so. -/
  | back (target : GroupRef) (position : Nat) (caseness : Caseness)
  | anchor (a : Anchor)
  /-- What is kept of the match starts here. -/
  | keep
deriving DecidableEq, Repr

namespace Regex

/-- The expressions one after the other. -/
def sequence : List Regex → Regex
  | [] => .empty
  | [r] => r
  | r :: rest => .seq r (sequence rest)

/-- The chain of some alternatives, first to last. -/
def chain : List Regex → Regex
  | [] => .never
  | r :: rest => .alt r (chain rest)

/-- The expressions as alternatives, first to last. -/
def alternatives : List Regex → Regex
  | [r] => r
  | rs => chain rs

/-- The expressions that a sequence is made of. -/
def items : Regex → List Regex
  | .empty => []
  | .seq a b => a.items ++ b.items
  | r => [r]

/-- Is there nothing in the expression that takes a character or sets a
condition? -/
def isVoid : Regex → Bool
  | .empty => true
  | .never => true
  | .seq a b | .alt a b => a.isVoid && b.isVoid
  | .loop body _ _ _ | .atomic body | .look _ _ body => body.isVoid
  | .one _ _ | .group _ _ | .back _ _ _ | .anchor _ | .keep => false

/-- The most characters that the expression can take, if there is a bound. -/
def reach? : Regex → Option Nat
  | .empty | .never | .look _ _ _ | .anchor _ | .keep => some 0
  | .one _ _ => some 1
  | .seq a b => do return (← a.reach?) + (← b.reach?)
  | .alt a b => do return max (← a.reach?) (← b.reach?)
  | .loop body _ most _ => do return (← body.reach?) * (← most)
  | .group _ body | .atomic body => body.reach?
  | .back _ _ _ => none

/-- The numbers of the groups that are referred to. -/
def references : Regex → List Nat
  | .empty | .never | .one _ _ | .anchor _ | .keep => []
  | .seq a b | .alt a b => a.references ++ b.references
  | .loop body _ _ _ | .group _ body | .atomic body | .look _ _ body => body.references
  | .back (.number n) _ _ => [n]
  | .back (.name _) _ _ => []

/-- The expression without the groups that are not in `used`: what they match is
never asked for. -/
def forget (used : List Nat) : Regex → Regex
  | .seq a b => .seq (a.forget used) (b.forget used)
  | .alt a b => .alt (a.forget used) (b.forget used)
  | .loop body least most greed => .loop (body.forget used) least most greed
  | .group n body => if used.contains n then .group n (body.forget used) else body.forget used
  | .atomic body => .atomic (body.forget used)
  | .look behind negated body => .look behind negated (body.forget used)
  | r => r

/-- The number of groups in the expression. -/
def groupCount : Regex → Nat
  | .seq a b | .alt a b => a.groupCount + b.groupCount
  | .loop body _ _ _ | .atomic body | .look _ _ body => body.groupCount
  | .group _ body => body.groupCount + 1
  | .empty | .never | .one _ _ | .back _ _ _ | .anchor _ | .keep => 0

end Regex

/-- A condition on the first character of a match. -/
structure Gate where
  set : CharSet
  caseness : Caseness
deriving DecidableEq, Repr

/-- A regular expression that is ready to be matched. -/
structure Expression where
  root : Regex
  /-- What is asked of the first character before anything is tried. -/
  gate : Option Gate
deriving DecidableEq, Repr

end LeafGrammar.Pattern

namespace LeafGrammar

/-- A pattern: how it was written, and what it finds when it is tried at the start of a text. What
it finds is a part of that text, but it need not be the beginning. -/
structure Pattern where
  source : String
  matched? : List Char → Option (List Char)
  within : ∀ {input found : List Char}, matched? input = some found → found <:+: input

end LeafGrammar
