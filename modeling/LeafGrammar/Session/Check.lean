import LeafGrammar.Session.Basic

/-!
# The check for unresolved injection points

Before a rule runs, every injection point that can be reached from it must be
resolved. The search keeps a list of nodes to look at, the next one first. A node
that has been looked at is passed over; of any other the children are put in front
of the list, the last one first. So a node is looked at once, and as it has two
children at most, twice as many moves as there are nodes, and one, are enough.

A rule that has passed keeps that verdict: slots are filled once and for all, so
what was resolved stays resolved.
-/

namespace LeafGrammar

/-- What a search comes to. -/
inductive Verdict where
  /-- An injection point has an empty slot; this is its base. -/
  | unresolved (base : Node)
  /-- All have been looked at, and no slot is empty. -/
  | resolved
  /-- There is more to look at than the moves allow. -/
  | unfinished

namespace Session

/-- Look for an injection point with an empty slot among the nodes to do and all
that is reached from them. `seen` tells of every number whether that node has been looked
at. -/
def search (slots : Slots) : Nat → List Node → Array Bool → Verdict
  | _, [], _ => .resolved
  | 0, _ :: _, _ => .unfinished
  | fuel + 1, node :: todo, seen =>
    if (seen[node.id]?).getD false then search slots fuel todo seen
    else
      match node, node.children slots with
      | .splice _ base _, [_] => .unresolved base
      | _, below =>
        search slots fuel (below.reverse ++ todo) (seen.setIfInBounds node.id true)

/-- What the search from a node comes to in the moves that are enough. -/
def verdict (s : Session) (node : Node) : Verdict :=
  search s.slots (2 * s.rules.size + 1) [node] (Array.replicate s.rules.size false)

end Session

namespace Build

/-- Stop with a grammar fault if an injection point that can be reached from the
rule is unresolved. A rule that has passed before is not searched again. -/
def check (r : Rule) : Build Unit := do
  let s ← get
  unless s.hasPassed r do
    match s.verdict r.node with
    | .unresolved base =>
      let label ← (base.label : Except Fault String)
      refuse (.unresolved label)
    | .resolved => set (s.markPassed r)
    | .unfinished => return ()

end Build

end LeafGrammar
