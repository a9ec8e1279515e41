import LeafGrammar.Pattern.Basic

/-!
# Matching

`Regex.ends r c` lists the places where a match of `r` that starts at the cursor
`c` can end, the most wanted first. A match is what the first of them says: the text up to
that place, without what comes before the last `\K` on the way. Without
groups a place fixes all that can follow, so a place is listed once only, and a
loop tries its body once only at each place: the work grows with a power of the
length of the text, whatever loops stand inside loops.

A loop first makes the rounds that it must make. After that a round that neither
moves the cursor nor changes a group ends the loop, since all further rounds would
do the same.
-/

namespace LeafGrammar.Pattern

/-- What a group has matched: where it starts, and its text. -/
structure Capture where
  start : Nat
  text : List Char
deriving DecidableEq, Repr

/-- A place in the text to be matched, with what the groups have matched. -/
structure Cursor where
  /-- The number of characters before the place. -/
  pos : Nat
  /-- The characters before the place, nearest first. -/
  passed : List Char
  /-- The characters after it. -/
  rest : List Char
  /-- The groups that have matched, by rising number. -/
  groups : List (Nat × Capture)
  /-- The number of characters before what is kept of the match. -/
  kept : Nat

namespace Cursor

/-- The start of a text. -/
def start (input : List Char) : Cursor := ⟨0, [], input, [], 0⟩

/-- Over the character `x`, which leaves `rest`. -/
def passing (c : Cursor) (x : Char) (rest : List Char) : Cursor :=
  { c with pos := c.pos + 1, passed := x :: c.passed, rest := rest }

/-- Back over the last character passed. -/
def back (c : Cursor) : Cursor :=
  match c.passed with
  | [] => c
  | x :: passed => { c with pos := c.pos - 1, passed := passed, rest := x :: c.rest }

/-- The text of group `n`, if it has matched. -/
def group? (c : Cursor) (n : Nat) : Option (List Char) := (c.groups.lookup n).map (·.text)

/-- The groups with group `n` set. -/
def setGroup (n : Nat) (x : Capture) : List (Nat × Capture) → List (Nat × Capture)
  | [] => [(n, x)]
  | (m, y) :: rest =>
    if n < m then (n, x) :: (m, y) :: rest
    else if n = m then (n, x) :: rest
    else (m, y) :: setGroup n x rest

/-- The cursor after group `n`, which started at `c`. -/
def closing (c' : Cursor) (n : Nat) (c : Cursor) : Cursor :=
  { c' with groups := setGroup n ⟨c.pos, c.rest.take (c'.pos - c.pos)⟩ c'.groups }

/-- Are the cursors at the same place, with the same groups? -/
def isAt (c d : Cursor) : Bool := c.pos == d.pos && c.groups == d.groups

end Cursor

/-! ### Places -/

/-- A set of places, as the bits of a number. A cursor that has groups is more
than a place, and no set tells of it. -/
structure Places where
  bits : Nat

namespace Places

/-- No place. -/
def none : Places := ⟨0⟩

/-- Is the cursor at one of the places? -/
def has (p : Places) (c : Cursor) : Bool := c.groups.isEmpty && p.bits.testBit c.pos

/-- The places with that of the cursor. -/
def adding (p : Places) (c : Cursor) : Places :=
  if c.groups.isEmpty then ⟨p.bits ||| (1 <<< c.pos)⟩ else p

end Places

/-- The cursors that are at no place of `seen` or of a cursor before them. -/
def distinctFrom (seen : Places) : List Cursor → List Cursor
  | [] => []
  | c :: rest =>
    if seen.has c then distinctFrom seen rest else c :: distinctFrom (seen.adding c) rest

/-- The cursors, each place once. -/
def distinct : List Cursor → List Cursor
  | [] => []
  | [c] => [c]
  | cs => distinctFrom .none cs

/-! ### Loops -/

/-- The places reached by between `least` and `most` characters of the set, each
after the one it follows on; the list grows at its head, so the farthest place
comes first. -/
def spans (inSet : Char → Bool) :
    List Char → Nat → Option Nat → Cursor → List Cursor → List Cursor
  | [], least, _, c, acc => if least = 0 then c :: acc else acc
  | x :: rest, least, most, c, acc =>
    let acc := if least = 0 then c :: acc else acc
    if most = some 0 || !inSet x then acc
    else spans inSet rest (least - 1) (most.map (· - 1)) (c.passing x rest) acc

/-- Where `count` rounds of a body that starts at the cursors can end. Once a round
leads nowhere or changes nothing, so do all others. -/
def roundsOf (body : Cursor → List Cursor) : Nat → List Cursor → List Cursor
  | 0, cs => cs
  | count + 1, cs =>
    let next := distinct (cs.flatMap body)
    if next.isEmpty || (next.length == cs.length && (next.zip cs).all fun (d, c) => d.isAt c) then
      next
    else roundsOf body count next

/-- What is known while a loop is tried. -/
structure Trail where
  /-- Where the loop can stop, last first. -/
  stops : List Cursor
  /-- The places of the stops. -/
  stopped : Places
  /-- The places where the body has been tried: in this round, in the next and so
  on. A loop without a bound counts all its rounds as one. -/
  tried : List Places

namespace Trail

/-- Nothing tried. -/
def new : Trail := ⟨[], .none, []⟩

/-- The loop can stop at the cursor. -/
def stop (t : Trail) (c : Cursor) : Trail :=
  if t.stopped.has c then t
  else { t with stops := c :: t.stops, stopped := t.stopped.adding c }

/-- Go on with `go` at the cursor, unless that has been done in the same round. -/
def enter (endless : Bool) (go : Cursor → Trail → Trail) (t : Trail) (c : Cursor) : Trail :=
  let here := t.tried.headD .none
  if here.has c then t
  else if endless then go c { t with tried := [here.adding c] }
  else
    let t' := go c { t with tried := t.tried.tail }
    { t' with tried := here.adding c :: t'.tried }

end Trail

/-- Try the rounds that a loop may make from the cursor, `rounds` at most. -/
def optionalRounds (body : Cursor → List Cursor) (reluctant endless : Bool) :
    Nat → Cursor → Trail → Trail
  | 0, c, t => t.stop c
  | rounds + 1, c, t =>
    let t := if reluctant then t.stop c else t
    let t := (body c).foldl (fun t c' =>
      if c'.isAt c then t.stop c'
      else t.enter endless (optionalRounds body reluctant endless rounds) c') t
    if reluctant then t else t.stop c

/-- Where a loop can end. Without an upper bound `plenty` is more than the number
of rounds that can each change something. The last of the rounds that must be
made already ends the loop if it changes nothing. -/
def loopEnds (body : Cursor → List Cursor) (least : Nat) (most : Option Nat) (reluctant : Bool)
    (plenty : Nat) (c : Cursor) : List Cursor :=
  let entries : List (Cursor × Bool) :=
    match least with
    | 0 => [(c, true)]
    | n + 1 => (roundsOf body n [c]).flatMap fun d => (body d).map fun d' => (d', !d'.isAt d)
  let rounds := (most.map (· - least)).getD plenty
  let trail := entries.foldl (fun (t : Trail) (d, goesOn) =>
    if goesOn then t.enter most.isNone (optionalRounds body reluctant most.isNone rounds) d
    else t.stop d) Trail.new
  trail.stops.reverse

/-! ### Expressions -/

/-- Does the anchor hold at the cursor? -/
def Anchor.holds (c : Cursor) : Anchor → Bool
  | .textStart => c.passed.isEmpty
  | .lineStart =>
    match c.passed with
    | [] => true
    | x :: _ => x == '\n'
  | .textEnd => c.rest.isEmpty
  | .lastLine => c.rest.isEmpty || c.rest == ['\n']
  | .lineEnd =>
    match c.rest with
    | [] => true
    | x :: _ => x == '\n'
  | .wordEdge negated ascii =>
    let isWord (s : List Char) : Bool :=
      match s with
      | [] => false
      | x :: _ => NamedClass.word.contains ascii x
    (isWord c.passed != isWord c.rest) != negated

/-- Match `body` so that it ends at `target`, starting at the cursor or at one of
the places before it; `passed` are the characters that it may go back over. -/
def endingAt? (body : Cursor → List Cursor) (target : Nat) : List Char → Cursor → Option Cursor
  | passed, c =>
    match (body c).find? (·.pos == target) with
    | some d => some d
    | none =>
      match passed with
      | [] => none
      | _ :: passed => endingAt? body target passed c.back

/-- Take `text` off the front of the cursor's rest. -/
def literally? (k : Caseness) : List Char → Cursor → Option Cursor
  | [], c => some c
  | x :: text, c =>
    match c.rest with
    | [] => none
    | y :: rest => if k.equal x y then literally? k text (c.passing y rest) else none

namespace Regex

/-- Where a match that starts at the cursor can end, the most wanted first. -/
def ends : Regex → Cursor → List Cursor
  | .empty, c => [c]
  | .never, _ => []
  | .one set k, c =>
    match c.rest with
    | [] => []
    | x :: rest => if set.contains k x then [c.passing x rest] else []
  | .seq a b, c => distinct ((a.ends c).flatMap b.ends)
  | .alt a b, c => distinct (a.ends c ++ b.ends c)
  | .loop (.one set k) least most greed, c =>
    let places := spans (set.contains k) c.rest least most c []
    match greed with
    | .greedy => places
    | .reluctant => places.reverse
    | .possessive => places.take 1
  | .loop body least most greed, c =>
    let plenty := (c.rest.length + 1) * (body.groupCount + 1)
    match greed with
    | .greedy => loopEnds body.ends least most false plenty c
    | .reluctant => loopEnds body.ends least most true plenty c
    | .possessive => (loopEnds body.ends least most false plenty c).take 1
  | .group n body, c => (body.ends c).map (·.closing n c)
  | .atomic body, c => (body.ends c).take 1
  | .look behind negated body, c =>
    let found :=
      if behind then
        let before := match body.reach? with
          | some n => c.passed.take n
          | none => c.passed
        endingAt? body.ends c.pos before c
      else (body.ends c).head?
    match found, negated with
    | some d, false => [{ c with groups := d.groups, kept := d.kept }]
    | none, true => [c]
    | _, _ => []
  | .back target _ k, c =>
    match target with
    | .number n => ((c.group? n).bind fun text => literally? k text c).toList
    | .name _ => []
  | .anchor a, c => if a.holds c then [c] else []
  | .keep, c => [{ c with kept := c.pos }]

/-- What the expression finds at the start of the input. -/
def found? (r : Regex) (input : List Char) : Option (List Char) :=
  (r.ends (.start input)).head?.map fun c => (input.take c.pos).drop c.kept

end Regex

/-- Does the gate let the input through? -/
def Gate.admits (g : Gate) (input : List Char) : Bool := input.head?.any (g.set.contains g.caseness)

namespace Expression

/-- What the expression finds at the start of the input, if the gate lets the input through. -/
def matched? (e : Expression) (input : List Char) : Option (List Char) :=
  if e.gate.all (·.admits input) then e.root.found? input else none

theorem matched?_within {e : Expression} {input found : List Char}
    (h : e.matched? input = some found) : found <:+: input := by
  unfold matched? Regex.found? at h
  split at h
  · obtain ⟨c, -, rfl⟩ := Option.map_eq_some_iff.mp h
    exact (List.drop_suffix _ _).isInfix.trans (List.take_prefix _ _).isInfix
  · cases h

end Expression

end LeafGrammar.Pattern

namespace LeafGrammar

/-- The pattern that an expression stands for. -/
def Pattern.ofExpression (source : String) (e : Pattern.Expression) : Pattern :=
  ⟨source, e.matched?, e.matched?_within⟩

/-- The pattern of a regular expression without a gate. -/
def Pattern.ofRegex (source : String) (root : Pattern.Regex) : Pattern :=
  .ofExpression source ⟨root, none⟩

end LeafGrammar
