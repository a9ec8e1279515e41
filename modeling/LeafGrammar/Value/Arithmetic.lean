import LeafGrammar.Value.Basic

/-!
# Arithmetic on values

The four operations on integers, doubles and truth values, with integers exact
and every mixed operation done in doubles. Addition also joins two texts, lists
or tuples, and multiplication by an integer repeats one.
-/

namespace LeafGrammar.Value

/-- A value seen as a number. -/
inductive Numeric where
  | int (n : Int)
  | float (x : Float)

/-- The number that a value is. -/
def numeric? : Value → Option Numeric
  | .int n => some (.int n)
  | .truth b => some (.int (if b then 1 else 0))
  | .float x => some (.float x)
  | .nan _ => some (.float Number.notANumber)
  | _ => none

/-- A number as a double. -/
def Numeric.toFloat : Numeric → Except Fault Float
  | .float x => .ok x
  | .int n =>
    match Number.ofInt? n with
    | some x => .ok x
    | none => .error (.overflow .intToFloat)

/-- An operation on two numbers: one function for integers, one for doubles. -/
def Numeric.combine (ints : Int → Int → Int) (floats : Float → Float → Float) :
    Numeric → Numeric → Except Fault Value
  | .int a, .int b => .ok (.int (ints a b))
  | a, b => do
    let x ← a.toFloat
    let y ← b.toFloat
    return .ofFloat (floats x y)

/-- The quotient of two numbers, always a double. -/
def Numeric.divide : Numeric → Numeric → Except Fault Value
  | .int a, .int b =>
    if b = 0 then .error .divisionByZero
    else
      match Number.quotient? a b with
      | some x => .ok (.ofFloat x)
      | none => .error (.overflow .quotient)
  | a, b => do
    let x ← a.toFloat
    let y ← b.toFloat
    if y == 0 then .error .floatDivisionByZero else return .ofFloat (x / y)

/-- The largest count by which something can be repeated. -/
def maxCount : Int := 9223372036854775807

/-- A list of items `n` times over, not at all for a negative `n`. -/
def repeated {α : Type} (items : List α) (n : Int) : List α :=
  if items.isEmpty then [] else (List.replicate n.toNat items).flatten

/-- The same after a test of the count. -/
def repeatItems {α : Type} (items : List α) (n : Int) : Except Fault (List α) :=
  if maxCount < n then .error (.overflow .repetitionCount)
  else if n < -maxCount - 1 then .error (.overflow .repetitionCount)
  else .ok (repeated items n)

/-- The integer by which a sequence is repeated. -/
def count? : Value → Option Int
  | .int n => some n
  | .truth b => some (if b then 1 else 0)
  | _ => none

/-- Repeat a text, list or tuple; `none` if the value is none of them. -/
def repeat? (v : Value) (by_ : Value) : Option (Except Fault Value) :=
  let times {α : Type} (items : List α) (make : List α → Value) : Except Fault Value :=
    match by_.count? with
    | some n => (repeatItems items n).map make
    | none => .error (.kind (.multiply by_.kind))
  match v with
  | .text s => some (times s.toList fun cs => .text (String.ofList cs))
  | .list vs => some (times vs .list)
  | .tuple vs => some (times vs .tuple)
  | _ => none

/-- The sum of two values. -/
def add (a b : Value) : Except Fault Value :=
  match a, b with
  | .text s, .text t => .ok (.text (s ++ t))
  | .list us, .list vs => .ok (.list (us ++ vs))
  | .tuple us, .tuple vs => .ok (.tuple (us ++ vs))
  | .text _, _ | .list _, _ | .tuple _, _ => .error (.kind (.concatenate a.kind b.kind))
  | _, _ =>
    match a.numeric?, b.numeric? with
    | some x, some y => x.combine (· + ·) (· + ·) y
    | _, _ => .error (.kind (.unsupported "+" a.kind b.kind))

/-- The difference of two values. -/
def sub (a b : Value) : Except Fault Value :=
  match a.numeric?, b.numeric? with
  | some x, some y => x.combine (· - ·) (· - ·) y
  | _, _ => .error (.kind (.unsupported "-" a.kind b.kind))

/-- The product of two values. -/
def mul (a b : Value) : Except Fault Value :=
  match a.numeric?, b.numeric? with
  | some x, some y => x.combine (· * ·) (· * ·) y
  | _, _ =>
    match a.repeat? b with
    | some r => r
    | none =>
      match b.repeat? a with
      | some r => r
      | none => .error (.kind (.unsupported "*" a.kind b.kind))

/-- The quotient of two values. -/
def div (a b : Value) : Except Fault Value :=
  match a.numeric?, b.numeric? with
  | some x, some y => x.divide y
  | _, _ => .error (.kind (.unsupported "/" a.kind b.kind))

/-- The sum of some values on top of `acc`. -/
def sumFrom (acc : Value) : List Value → Except Fault Value
  | [] => .ok acc
  | v :: rest => do sumFrom (← acc.add v) rest

end LeafGrammar.Value
