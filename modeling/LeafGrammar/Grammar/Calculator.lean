import LeafGrammar.Grammar.Lexeme
import LeafGrammar.Value.Table

/-!
# The calculator

    expr   := term (('+' | '-') term)*
    term   := factor (('*' | '/') factor)*
    factor := '(' expr ')' | NUMBER

Every operator takes its operands from the left. A chain of operators is read as
a repetition and folded by an action.
-/

namespace LeafGrammar.Grammar

/-- The value under a number's text: a double if a point is in it, else an
integer. -/
def numberOf : Value → Except Fault Value
  | .text s => do
    if s.toList.contains '.' then return .ofFloat (← Number.readFloat s)
    else return .int (← Number.readInt s)
  | v =>
    let items : Except Fault (List Value) :=
      match v with
      | .list _ | .tuple _ | .dict _ => v.items
      | _ => .error (.kind (.notContainer v.kind))
    do
      if (← items).any (Value.sameKey (.text ".")) then throw (.kind (.floatArgument v.kind))
      else throw (.kind (.intArgument v.kind))

/-- The first token as a number. -/
def toNumber : Action where
  name := "_to_number"
  apply
    | [] => .error .listIndex
    | token :: _ => do return .list [← numberOf token]

/-- The operation that a token stands for. -/
def operationOf (token : Value) : Except Fault (Value → Value → Except Fault Value) := do
  Value.checkKey token
  match token with
  | .text "+" => return Value.add
  | .text "-" => return Value.sub
  | .text "*" => return Value.mul
  | .text "/" => return Value.div
  | _ => throw (.missingKey (← token.shown))

/-- Apply operators and operands in turn to `acc`, from the left. -/
def foldFrom (acc : Value) : List Value → Except Fault Value
  | [] => .ok acc
  | [operator] => do
    let _ ← operationOf operator
    throw .listIndex
  | operator :: operand :: rest => do
    let operation ← operationOf operator
    let acc ← operation acc operand
    foldFrom acc rest

/-- Operands and operators in turn, folded into one value. -/
def fold : Action where
  name := "_fold"
  apply
    | [] => .error .listIndex
    | first :: rest => do return .list [← foldFrom first rest]

/-- The calculator. The opening parenthesis starts the chain, so that its
injection point can stand for a whole expression. -/
def calculator : Build Rule := do
  let opened ← symbol "\\("
  let nested ← Build.markInjection opened
  let closed ← symbol "\\)"
  let group ← Build.andThen nested (.rule closed)
  let digits ← lexeme "\\d+(?:\\.\\d+)?"
  let number ← Build.map digits (.action toNumber)
  let factor ← Build.orElse group (.rule number)
  let product ← chainOf factor "[*/]"
  let sum ← chainOf product "[+-]"
  let expr ← Build.inject sum
  let tail ← spaces
  Build.andThen expr (.rule tail)
where
  /-- Operands joined by operators that match the pattern, folded from the
  left. -/
  chainOf (operand : Rule) (operator : String) : Build Rule := do
    let op ← lexeme operator
    let pair ← Build.andThen op (.rule operand)
    let pairs ← Build.star pair
    let all ← Build.andThen operand (.rule pairs)
    Build.map all (.action fold)

end LeafGrammar.Grammar
