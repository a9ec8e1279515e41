import LeafGrammar.Fault
import LeafGrammar.Number.Literal
import LeafGrammar.Number.Shortest

/-!
# Values

The tokens a rule produces. A leaf produces texts; token actions turn them into
numbers, lists, tuples and dictionaries. A dictionary keeps its entries in the
order in which their keys were first bound.
-/

namespace LeafGrammar

/-- A token. -/
inductive Value where
  | null
  | truth (b : Bool)
  | int (n : Int)
  /-- A double that is a number or an infinity. -/
  | float (x : Float)
  /-- The double that is not a number. It is the same as its copies only, and these
  have its mark. -/
  | nan (mark : Option Nat)
  | text (s : String)
  | list (items : List Value)
  | tuple (items : List Value)
  | dict (entries : List (Value × Value))
deriving Inhabited

namespace Value

/-- The value of a double. -/
def ofFloat (x : Float) : Value := if x.isNaN then .nan none else .float x

/-- The kind of a value. -/
def kind : Value → Kind
  | .null => .null
  | .truth _ => .truth
  | .int _ => .int
  | .float _ | .nan _ => .float
  | .text _ => .text
  | .list _ => .list
  | .tuple _ => .tuple
  | .dict _ => .dict

/-- Does the value count as true? Zero, the empty text and empty collections do
not. -/
def isTruthy : Value → Bool
  | .null => false
  | .truth b => b
  | .int n => n != 0
  | .float x => x != 0
  | .nan _ => true
  | .text s => !s.isEmpty
  | .list items => !items.isEmpty
  | .tuple items => !items.isEmpty
  | .dict entries => !entries.isEmpty

/-- The integral that a value is, if it is one. -/
def integral? : Value → Option Integral
  | .int n => some (.num n)
  | .truth b => some (.truth b)
  | _ => none

/-- The characters of a text as one-character texts. -/
def charTexts (s : String) : List Value := s.toList.map fun c => .text (String.singleton c)

/-- What a value yields when it is gone through item by item: a text its
characters, a dictionary its keys. -/
def items : Value → Except Fault (List Value)
  | .text s => .ok (charTexts s)
  | .list vs => .ok vs
  | .tuple vs => .ok vs
  | .dict es => .ok (es.map (·.1))
  | v => .error (.kind (.notIterable v.kind))

end Value

end LeafGrammar
