import LeafGrammar.Engine.Result
import LeafGrammar.Rule.Node
import LeafGrammar.Text.Slice
import LeafGrammar.Value.Arithmetic

/-!
# The machine

A rule is run by a machine with an explicit stack of frames, so the depth of a
grammar or the length of a repetition costs memory and never recursion. The
machine either visits a node at an offset or hands a result to the frame on top
of the stack. `Machine.step` makes one such move; it depends on nothing below
the top frame. `Machine.run` makes moves until the machine stops or the given
number of them is used up, because a left-recursive grammar never stops.
-/

namespace LeafGrammar

/-- The result of a leaf at an offset. The pattern sees the text from the offset
on and nothing before it. At the end of the text no leaf matches, not even one
for the empty text. -/
def leafResult (p : Pattern) (text : List Char) (pos : Integral) : Result :=
  let input := Text.suffixFrom text pos.toInt
  if input.isEmpty && 0 ≤ pos.toInt then .failure pos (some .pastEnd)
  else
    match p.matched? input with
    | none => .failure pos none
    | some found => .success [.text (String.ofList found)] (pos.advance found.length)

namespace Machine

/-- A combinator that waits for the result of a child. -/
inductive Frame where
  /-- A sequence waits for its left rule. -/
  | seqLeft (right : Node)
  /-- A sequence waits for its right rule; the left one gave these tokens. -/
  | seqRight (tokens : List Value)
  /-- A choice waits for its left rule, tried at `pos`. -/
  | choiceLeft (right : Node) (pos : Integral)
  | choiceRight
  /-- A repetition waits for a round that started at `cur`; `count` rounds before
  gave `tokens`. -/
  | rep (child : Node) (least : Integral) (most : Option Integral)
      (tokens : List Value) (cur : Integral) (count : Nat)
  /-- An action waits for its rule. -/
  | map (action : Action)
  /-- An injection point waits for its base. -/
  | spliceBase (slot : SlotId)
  /-- An injection point waits for the rule in its slot; the base gave these
  tokens. -/
  | spliceTarget (tokens : List Value)

/-- What the machine is about to do. -/
inductive State where
  | visit (node : Node) (pos : Integral) (stack : List Frame)
  | give (result : Result) (stack : List Frame)

/-- What a move leads to. -/
inductive Move where
  | next (s : State)
  | done (r : Result)
  | raised (f : Fault)

/-- May a repetition start a round after `count` of them? -/
def mayGoOn (most : Option Integral) (count : Nat) : Bool :=
  match most with
  | none => true
  | some m => (count : Int) < m.toInt

/-- A repetition that makes no further round: it succeeds if the rounds are
enough. -/
def finishRep (least : Integral) (tokens : List Value) (cur : Integral) (count : Nat)
    (stack : List Frame) : Move :=
  if (count : Int) < least.toInt then
    if least.isShowable then .next (.give (.failure cur (some (.tooFew least count))) stack)
    else .raised (.value .tooManyDigitsToShow)
  else .next (.give (.success tokens cur) stack)

/-- A repetition after `count` rounds: a further round, or the end. -/
def continueRep (child : Node) (least : Integral) (most : Option Integral)
    (tokens : List Value) (cur : Integral) (count : Nat) (stack : List Frame) : Move :=
  if mayGoOn most count then
    .next (.visit child cur (.rep child least most tokens cur count :: stack))
  else finishRep least tokens cur count stack

/-- A round of a repetition that succeeded where it started. Every further round
would do the same, so no more are made: without an upper bound this round meets
any lower one; with an upper bound its tokens are taken for each round up to
it. -/
def settleRep (least : Integral) (most : Option Integral) (all round : List Value)
    (cur : Integral) (count : Nat) (stack : List Frame) : Move :=
  match most with
  | none => .next (.give (.success all cur) stack)
  | some m =>
    match Value.repeatItems round (m.toInt - count) with
    | .ok more => finishRep least (all ++ more) cur m.toInt.toNat stack
    | .error f => .raised f

/-- Hand a result to a waiting frame. -/
def resume (slots : Slots) (frame : Frame) (result : Result) (stack : List Frame) : Move :=
  match frame, result with
  | .seqLeft right, .success tokens pos => .next (.visit right pos (.seqRight tokens :: stack))
  | .seqRight tokens, .success more pos => .next (.give (.success (tokens ++ more) pos) stack)
  | .choiceLeft right start, .failure .. => .next (.visit right start (.choiceRight :: stack))
  | .rep child least most tokens cur count, .success round pos =>
    let all := tokens ++ round
    if pos.toInt = cur.toInt then settleRep least most all round cur (count + 1) stack
    else continueRep child least most all pos (count + 1) stack
  | .rep _ least _ tokens cur count, .failure .. => finishRep least tokens cur count stack
  | .map action, .success tokens pos =>
    match action.newTokens tokens with
    | .ok tokens => .next (.give (.success tokens pos) stack)
    | .error f => .raised f
  | .spliceBase slot, .success tokens pos =>
    match slots.target? slot with
    | none => .raised (.grammar .reachedUnresolved)
    | some target => .next (.visit target pos (.spliceTarget tokens :: stack))
  | .spliceTarget tokens, .success more pos =>
    .next (.give (.success (tokens ++ more) pos) stack)
  | _, result => .next (.give result stack)

/-- Start on a node: a leaf answers at once, a combinator asks for its first
child. -/
def enter (text : List Char) (node : Node) (pos : Integral) (stack : List Frame) : Move :=
  match node with
  | .leaf _ p => .next (.give (leafResult p text pos) stack)
  | .empty _ => .next (.give (.success [] pos) stack)
  | .seq _ l r => .next (.visit l pos (.seqLeft r :: stack))
  | .choice _ l r => .next (.visit l pos (.choiceLeft r pos :: stack))
  | .rep _ child least most => continueRep child least most [] pos 0 stack
  | .map _ child action => .next (.visit child pos (.map action :: stack))
  | .splice _ base slot => .next (.visit base pos (.spliceBase slot :: stack))

/-- One move. -/
def step (slots : Slots) (text : List Char) : State → Move
  | .visit node pos stack => enter text node pos stack
  | .give result [] => .done result
  | .give result (frame :: stack) => resume slots frame result stack

/-- Moves until the machine stops, `fuel` of them at most. -/
def run (slots : Slots) (text : List Char) : Nat → State → Outcome Result
  | 0, _ => .outOfFuel
  | fuel + 1, s =>
    match step slots text s with
    | .next s => run slots text fuel s
    | .done r => .value r
    | .raised f => .raised f

end Machine

/-- Run a node on a text from an offset. -/
def evaluate (fuel : Nat) (slots : Slots) (text : List Char) (node : Node) (pos : Integral) :
    Outcome Result :=
  Machine.run slots text fuel (.visit node pos [])

end LeafGrammar
