import LeafGrammar.Pattern.Simplify

/-!
# The first character of a match

If every match of an expression takes a character, the sets that its first
character can come from are known beforehand, and their union is asked first.
This gate disregards case as soon as one of the sets does, for all of them: under
`(?i:b)|[^xA]` the letter `a` is turned away, since it differs from `A` in case
only. An expression that starts with a character of its own needs no gate, and one
that could turn nothing away that the sets take one by one has none.
-/

namespace LeafGrammar.Pattern

namespace Regex

/-- Does the expression start with an element that takes one character? -/
def startsSimply : Regex → Bool
  | .one _ _ => true
  | .seq a _ => a.startsSimply
  | .group _ body | .atomic body => body.startsSimply
  | _ => false

/-- The caseness of some characters written side by side: exact if none of them
has variants. -/
def runCaseness (ascii : Bool) (k : Caseness) (run : List Char) : Caseness :=
  let isCased (c : Char) : Bool :=
    1 < ((if ascii then Caseness.asciiLetters else .letters).variants c).length
  if run.any isCased then k else .exact

/-- The elements of a sequence with the caseness of single characters settled.
Those in `run`, last first, come right before the list and have the caseness
`k`: the next one joins them unless its caseness is another and shows. -/
def settle (ascii : Bool) (k : Caseness) (run : List Char) : List Regex → List Regex
  | [] => settled ascii k run
  | .one (.item ⟨.char c, false⟩) k' :: rest =>
    if k' = k || (k' = .exact && runCaseness ascii k [c] = .exact) then
      settle ascii k (c :: run) rest
    else settled ascii k run ++ settle ascii k' [c] rest
  | r :: rest => settled ascii k run ++ r :: settle ascii k [] rest
where
  /-- The characters of a run as elements. -/
  settled (ascii : Bool) (k : Caseness) (run : List Char) : List Regex :=
    run.reverse.map fun c => .one (.ofChar c) (runCaseness ascii k run)

mutual

/-- The expression with the caseness of the characters in its sequences
settled. -/
def settleCase (ascii : Bool) : Regex → Regex
  | .seq a b => sequence (settle ascii .exact [] (a.settleCase ascii :: b.settledItems ascii))
  | .alt a b => .alt (a.settleCase ascii) (b.settleCase ascii)
  | .loop body least most greed => .loop (body.settleCase ascii) least most greed
  | .group n body => .group n (body.settleCase ascii)
  | .atomic body => .atomic (body.settleCase ascii)
  | .look behind negated body => .look behind negated (body.settleCase ascii)
  | .empty => .empty
  | .never => .never
  | .one set k => .one set k
  | .back target position k => .back target position k
  | .anchor a => .anchor a
  | .keep => .keep

/-- The elements of the rest of a sequence. -/
def settledItems (ascii : Bool) : Regex → List Regex
  | .seq a b => a.settleCase ascii :: b.settledItems ascii
  | .empty => []
  | .alt a b => [.alt (a.settleCase ascii) (b.settleCase ascii)]
  | .loop body least most greed => [.loop (body.settleCase ascii) least most greed]
  | .group n body => [.group n (body.settleCase ascii)]
  | .atomic body => [.atomic (body.settleCase ascii)]
  | .look behind negated body => [.look behind negated (body.settleCase ascii)]
  | .never => [.never]
  | .one set k => [.one set k]
  | .back target position k => [.back target position k]
  | .anchor a => [.anchor a]
  | .keep => [.keep]

end

/-- What is known of the start of a match. -/
structure Opening where
  /-- Where its first character can come from. -/
  sets : List Gate
  /-- Whether there are matches that the sets say nothing of. -/
  mayBeEmpty : Bool

/-- What is known of the start of a match; `none` if the first character can be
any. -/
def opening? : Regex → Option Opening
  | .empty | .anchor _ | .keep => some ⟨[], true⟩
  | .never => some ⟨[], false⟩
  | .one set k => if set.members?.isSome then some ⟨[⟨set, k⟩], false⟩ else none
  | .seq a b => do
    let first ← a.opening?
    if first.mayBeEmpty then
      let second ← b.opening?
      return ⟨first.sets ++ second.sets, second.mayBeEmpty⟩
    else return first
  | .alt a b => do
    let first ← a.opening?
    let second ← b.opening?
    return ⟨first.sets ++ second.sets, first.mayBeEmpty || second.mayBeEmpty⟩
  | .loop body least _ _ => do
    let o ← body.opening?
    return ⟨o.sets, o.mayBeEmpty || least == 0⟩
  | .group _ body | .atomic body => body.opening?
  | .look false false body => body.opening?
  | .look _ _ _ => some ⟨[], true⟩
  | .back _ _ _ => none

end Regex

/-- Is the set a single negated character? -/
def CharSet.isOtherThan : CharSet → Bool
  | .item s => s.isOtherThan
  | _ => false

namespace Gate

/-- Can the union of the sets turn a character away that one of them takes? Only if
their casenesses differ, or if it brings negated characters together. -/
def isStricter (sets : List Gate) (union : CharSet) : Bool :=
  (sets.any (·.caseness = .exact) && sets.any (·.caseness ≠ .exact)) ||
    match union with
    | .union members _ => 1 < ((members.filterMap Member.item?).filter (·.isOtherThan)).length
    | _ => false

/-- The gate of an expression in its simple form, if it has one. -/
def of? (ascii : Bool) (r : Regex) : Option Gate := do
  if r.startsSimply then none
  else
    let o ← (r.settleCase ascii).opening?
    if o.mayBeEmpty || o.sets.isEmpty || o.sets.any (·.set.isOtherThan) then none
    else
      let set := CharSet.unite (o.sets.map (·.set))
      let k := ((o.sets.map (·.caseness)).find? (· ≠ .exact)).getD .exact
      if set = .all || !isStricter o.sets set then none else some ⟨set, k⟩

end Gate

end LeafGrammar.Pattern
