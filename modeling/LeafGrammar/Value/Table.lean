import LeafGrammar.Value.Show

/-!
# Dictionaries

Keys are compared by value: a truth value, an integer and a double that are
numerically equal are the same key. What is not a number is the same key as its
copies only. Binding a key again keeps its place and the key first written and
takes the new value.
-/

namespace LeafGrammar.Value

/-- Are two numbers equal? -/
def sameNumber (x : Float) (n : Int) : Bool := Number.exactInt? x == some n

mutual

/-- Are two keys the same? -/
def sameKey : Value → Value → Bool
  | .null, .null => true
  | .text s, .text t => s == t
  | .tuple us, .tuple vs => sameKeys us vs
  | .float x, .float y => x == y
  | .nan (some m), .nan (some n) => m == n
  | .float x, .int n | .int n, .float x => sameNumber x n
  | .float x, .truth b | .truth b, .float x => sameNumber x (if b then 1 else 0)
  | .int m, .int n => m == n
  | .int m, .truth b | .truth b, .int m => m == if b then 1 else 0
  | .truth b, .truth c => b == c
  | _, _ => false

/-- Are two tuples of keys the same? -/
def sameKeys : List Value → List Value → Bool
  | [], [] => true
  | u :: us, v :: vs => sameKey u v && sameKeys us vs
  | _, _ => false

end

mutual

/-- A value that can be a key: no list and no dictionary is in it. -/
def checkKey : Value → Except Fault Unit
  | .list _ => .error (.kind (.unhashable Kind.list.name))
  | .dict _ => .error (.kind (.unhashable Kind.dict.name))
  | .tuple vs => checkKeys vs
  | _ => .ok ()

/-- The items of a tuple can all be keys. -/
def checkKeys : List Value → Except Fault Unit
  | [] => .ok ()
  | v :: rest => do
    checkKey v
    checkKeys rest

end

/-- Bind `k` to `v`. -/
def bindKey (k v : Value) : List (Value × Value) → List (Value × Value)
  | [] => [(k, v)]
  | (k', v') :: rest =>
    if sameKey k' k then (k', v) :: rest else (k', v') :: bindKey k v rest

/-- The parts of a dictionary entry number `index`: a collection or text of
length two. -/
def entryOf (index : Nat) (v : Value) : Except Fault (Value × Value) :=
  match v.items with
  | .error _ => .error (.kind (.entryNotSequence index))
  | .ok [k, x] => .ok (k, x)
  | .ok vs => .error (.value (.entryLength index vs.length))

/-- The dictionary of some entries, bound in order on top of `bound`. -/
def tableFrom : Nat → List Value → List (Value × Value) → Except Fault (List (Value × Value))
  | _, [], bound => .ok bound
  | index, v :: rest, bound => do
    let (k, x) ← entryOf index v
    checkKey k
    tableFrom (index + 1) rest (bindKey k x bound)

/-- The dictionary of some entries. -/
def tableOf (entries : List Value) : Except Fault Value := do
  return .dict (← tableFrom 0 entries [])

end LeafGrammar.Value
