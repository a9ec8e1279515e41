import LeafGrammar.Grammar.Calculator
import LeafGrammar.Grammar.KeyValue
import LeafGrammar.Grammar.Nested
import LeafGrammar.Session.Run

/-!
# The bundled grammars

The grammars by name, and parsing a text with one of them in a session of its
own.
-/

namespace LeafGrammar.Grammar

/-- A bundled grammar. -/
inductive Bundled where
  | calc
  | kv
  | nested
deriving DecidableEq, Repr

namespace Bundled

/-- All bundled grammars, by name in rising order. -/
def all : List Bundled := [.calc, .kv, .nested]

/-- The name of a grammar. -/
def name : Bundled → String
  | .calc => "calc"
  | .kv => "kv"
  | .nested => "nested"

/-- The grammar of a name. -/
def ofName? (s : String) : Option Bundled := all.find? (·.name == s)

/-- The rule of a grammar. -/
def build : Bundled → Build Rule
  | .calc => calculator
  | .kv => keyValue
  | .nested => nestedDigits

end Bundled

/-- The first of the tokens, which is the value of a text. -/
def firstToken : Outcome (List Value) → Outcome Value
  | .value (v :: _) => .value v
  | .value [] => .raised .listIndex
  | .raised f => .raised f
  | .outOfFuel => .outOfFuel

/-- Parse a text in a session that has the rule. -/
def parseWith (fuel : Nat) (built : Except Fault Rule × Session) (text : List Char) :
    Outcome (List Value) × Session :=
  match built with
  | (.error f, s) => (.raised f, s)
  | (.ok rule, s) => s.parse fuel rule text

/-- Parse a text with a freshly built grammar. -/
def Bundled.parse (fuel : Nat) (g : Bundled) (s : Session) (text : List Char) :
    Outcome (List Value) × Session :=
  parseWith fuel (g.build s) text

/-- The value of an arithmetic expression. -/
def calculate (fuel : Nat) (s : Session) (text : List Char) : Outcome Value :=
  firstToken (Bundled.calc.parse fuel s text).1

/-- The dictionary of a key/value text. -/
def parseKeyValue (fuel : Nat) (s : Session) (text : List Char) : Outcome Value :=
  firstToken (Bundled.kv.parse fuel s text).1

/-- The values of some expressions, one after the other with the same rule. -/
def calculateEach (fuel : Nat) (rule : Rule) : Session → List (List Char) → List (Outcome Value)
  | _, [] => []
  | s, text :: rest =>
    let (outcome, s) := s.parse fuel rule text
    firstToken outcome :: calculateEach fuel rule s rest

/-- The values of some expressions with one calculator for all of them. -/
def calculateAll (fuel : Nat) (s : Session) (texts : List (List Char)) : List (Outcome Value) :=
  match calculator s with
  | (.error f, _) => texts.map fun _ => .raised f
  | (.ok rule, s) => calculateEach fuel rule s texts

end LeafGrammar.Grammar
