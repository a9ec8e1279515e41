import LeafGrammar.Fault
import LeafGrammar.Number.Nearest
import LeafGrammar.Text.Blank
import LeafGrammar.Text.DecimalDigit
import LeafGrammar.Text.Case

/-!
# Numbers as text

Reading integers and doubles from text, and writing integers. Both readers trim
white space and take a sign, digits of every script, and single underscores
between digits. Integers of more than `digitLimit` digits are neither read nor
written.
-/

namespace LeafGrammar.Number

/-- The number of decimal digits of `n`. -/
def digitCount (n : Nat) : Nat := (Nat.toDigits 10 n).length

/-- Has the integer few enough digits to be written? -/
def isWritable (n : Int) : Bool := digitCount n.natAbs ≤ digitLimit

/-- An integer in decimal digits, unless it has too many of them. -/
def showInt (n : Int) : Except Fault String :=
  if isWritable n then .ok (toString n) else .error (.value .tooManyDigitsToShow)

/-- The sign in front of a number, if there is one, and the rest. -/
def splitSign : List Char → Bool × List Char
  | '-' :: rest => (true, rest)
  | '+' :: rest => (false, rest)
  | rest => (false, rest)

/-- A run of digits and underscores. -/
structure DigitRun where
  /-- The values of the digits, last first. -/
  digits : List Nat
  rest : List Char
  /-- No underscore stands first, last or next to another. -/
  tidy : Bool

/-- Read digits and underscores. `ready` says that an underscore may follow: the
last character was a digit. -/
def readDigits : List Char → Bool → List Nat → DigitRun
  | [], ready, acc => ⟨acc, [], ready || acc.isEmpty⟩
  | '_' :: rest, ready, acc =>
    if ready then readDigits rest false acc else ⟨acc, '_' :: rest, false⟩
  | c :: rest, ready, acc =>
    match Text.digitValue? c with
    | some d => readDigits rest true (d :: acc)
    | none => ⟨acc, c :: rest, ready || acc.isEmpty⟩

/-- The number with these digits, last first. -/
def ofDigits : List Nat → Nat := List.foldr (fun d n => n * 10 + d) 0

/-- Read an integer. -/
def readInt (s : String) : Except Fault Int :=
  let invalid : Except Fault Int := .error (.value (.intLiteral (Text.quoted s)))
  let (negative, body) := splitSign (Text.trimBlanks s.toList)
  let run := readDigits body false []
  if !run.tidy || run.digits.isEmpty then invalid
  else if digitLimit < run.digits.length then
    .error (.value (.tooManyDigitsToRead run.digits.length))
  else if !run.rest.isEmpty then invalid
  else
    let n : Int := ofDigits run.digits
    .ok (if negative then -n else n)

/-- Decimal exponents beyond this size give zero or infinity whatever the digits. -/
def exponentLimit : Nat := 400

/-- The double nearest to `digits * 10 ^ exponent`, infinite if it is too large. -/
def ofDecimal (negative : Bool) (digits : Nat) (size : Nat) (exponent : Int) : Float :=
  let magnitude : Int := size + exponent
  if digits = 0 || magnitude < -(exponentLimit : Int) then (nearest negative 0 1).getD 0
  else if (exponentLimit : Int) < magnitude then infinity negative
  else
    let rounded :=
      if 0 ≤ exponent then nearest negative (digits * Nat.pow 10 exponent.toNat) 1
      else nearest negative digits (Nat.pow 10 (-exponent).toNat)
    rounded.getD (infinity negative)

/-- Read the exponent part of a double, if there is one. -/
def readExponent : List Char → Option (Int × List Char)
  | c :: rest =>
    if c = 'e' || c = 'E' then
      let (negative, body) := splitSign rest
      let run := readDigits body false []
      if !run.tidy || run.digits.isEmpty then none
      else
        let n : Int := ofDigits run.digits
        some (if negative then -n else n, run.rest)
    else some (0, c :: rest)
  | [] => some (0, [])

/-- Read a double of digits, with a sign in front already taken. -/
def readDecimal? (negative : Bool) (body : List Char) : Option Float := do
  let whole := readDigits body false []
  let fraction :=
    match whole.rest with
    | '.' :: rest => readDigits rest false []
    | rest => ⟨[], rest, true⟩
  if !whole.tidy || !fraction.tidy then failure
  if whole.digits.isEmpty && fraction.digits.isEmpty then failure
  let (e, rest) ← readExponent fraction.rest
  if !rest.isEmpty then failure
  let digits := fraction.digits ++ whole.digits
  let n := ofDigits digits
  some (ofDecimal negative n (digitCount n) (e - fraction.digits.length))

/-- Read a double. -/
def readFloat (s : String) : Except Fault Float :=
  let (negative, body) := splitSign (Text.trimBlanks s.toList)
  let word := String.ofList (body.map Text.asciiLowerOf)
  if word = "inf" || word = "infinity" then .ok (infinity negative)
  else if word = "nan" then .ok notANumber
  else
    match readDecimal? negative body with
    | some x => .ok x
    | none => .error (.value (.floatLiteral (Text.quoted s)))

end LeafGrammar.Number

namespace LeafGrammar.Integral

/-- An integral as text, unless it has too many digits. -/
def shown : Integral → Except Fault String
  | .num n => Number.showInt n
  | .truth b => .ok (Integral.truth b).text

/-- Can it be written as text? -/
def isShowable : Integral → Bool
  | .num n => Number.isWritable n
  | .truth _ => true

end LeafGrammar.Integral
