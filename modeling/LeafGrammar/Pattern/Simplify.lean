import LeafGrammar.Pattern.Basic

/-!
# Simplifying expressions

Before an expression is used its alternatives are rearranged. Alternatives of
alternatives become one list, what all begin with is moved to the front (behind a
place: what all end with is moved to the end), and neighbours that take a single
character become one set. The last step is more than a shorter way to say the
same: a union treats negated characters together, so `[^a]|[^b]` takes neither
`a` nor `b`.
-/

namespace LeafGrammar.Pattern.Regex

/-- The set and caseness of an expression that can be merged with its neighbours:
a single character, a class or a union, and no single range. -/
def mergeable? : Regex → Option (CharSet × Caseness)
  | .one (.item ⟨.range _ _, _⟩) _ => none
  | .one set k => if set.members?.isSome then some (set, k) else none
  | _ => none

/-- The merged form of neighbours, last first. -/
def merged (k : Caseness) : List CharSet → List Regex
  | [] => []
  | sets => [.one (.unite sets.reverse) k]

/-- Merge neighbours of the same caseness. The sets in `pending`, last first, come
right before the list. -/
def mergeNeighbours (pending : List CharSet) (k : Caseness) : List Regex → List Regex
  | [] => merged k pending
  | r :: rest =>
    match r.mergeable? with
    | none => merged k pending ++ r :: mergeNeighbours [] k rest
    | some (set, k') =>
      if k' = k then mergeNeighbours (set :: pending) k rest
      else merged k pending ++ mergeNeighbours [set] k' rest

/-- Can the expression be moved out of alternatives that all have it? -/
def isMovable : Regex → Bool
  | .one _ _ | .anchor _ | .keep | .never => true
  | .empty => true
  | .seq a b => a.isMovable && b.isMovable
  | .look _ _ body => body.isMovable
  | .alt _ _ | .loop _ _ _ _ | .group _ _ | .atomic _ | .back _ _ _ => false

/-- How many expressions at the front of `first` do all the others begin with as
well? -/
def sharedLength : List Regex → List (List Regex) → Nat
  | [], _ => 0
  | r :: first, others =>
    if r.isMovable && others.all (·.head? == some r) then
      sharedLength first (others.map List.tail) + 1
    else 0

/-- What all sequences begin with, and how each goes on. -/
def splitFront : List (List Regex) → List Regex × List (List Regex)
  | [] => ([], [])
  | first :: others =>
    let n := sharedLength first others
    (first.take n, (first :: others).map (List.drop n))

/-- What all sequences end with, and what each begins with. -/
def splitBack (seqs : List (List Regex)) : List Regex × List (List Regex) :=
  let (shared, rest) := splitFront (seqs.map List.reverse)
  (shared.reverse, rest.map List.reverse)

/-- One expression for some alternatives that are simple themselves. -/
def combine (behind : Bool) (branches : List Regex) : Regex :=
  let (shared, rest) :=
    if behind then splitBack (branches.map items) else splitFront (branches.map items)
  let core := match mergeNeighbours [] .exact (rest.map sequence) with
    | [r] => r.items
    | rs => [alternatives rs]
  sequence (if behind then core ++ shared else shared ++ core)

/-- The alternatives of a chain; any other expression is its only one. -/
def branches : Regex → List Regex
  | .alt r others => r :: others.branches
  | .never => []
  | r => [r]

mutual

/-- The simple form of an expression; `behind` says that it is matched up to a
place and not from it. -/
def simplify (behind : Bool) : Regex → Regex
  | .empty => .empty
  | .never => .never
  | .one set k => .one set k
  | .seq a b => sequence ((a.simplify behind).items ++ (b.simplify behind).items)
  | .alt a b => combine behind ((a.simplify behind).branches ++ b.simpleBranches behind)
  | .loop body least most greed => .loop (body.simplify behind) least most greed
  | .group n body => .group n (body.simplify behind)
  | .atomic body => .atomic (body.simplify behind)
  | .look behind' negated body =>
    let body := body.simplify behind'
    if !negated && body.isVoid then body else .look behind' negated body
  | .back target position k => .back target position k
  | .anchor a => .anchor a
  | .keep => .keep

/-- The simple forms of the alternatives of a chain. -/
def simpleBranches (behind : Bool) : Regex → List Regex
  | .alt a b => (a.simplify behind).branches ++ b.simpleBranches behind
  | _ => []

end

end LeafGrammar.Pattern.Regex
