/-!
# The double nearest to a fraction

Every conversion to a double goes through one rounding: the exact fraction
`num / den` is rounded once, to the nearest double, a tie to the even one. This
covers integers that are too wide for a double, quotients of integers and
decimal literals.
-/

namespace LeafGrammar.Number

/-- The quotient `n / d` rounded to the nearest whole number, a tie to the even
one. -/
def roundDiv (n d : Nat) : Nat :=
  let q := n / d
  let twice := 2 * (n % d)
  if twice < d then q
  else if d < twice then q + 1
  else q + q % 2

/-- The largest `e` with `2 ^ e ≤ n / d`, for positive `n` and `d`. -/
def binaryExponent (n d : Nat) : Int :=
  let e : Int := (n.log2 : Int) - (d.log2 : Int)
  let reached := if 0 ≤ e then d * Nat.pow 2 e.toNat ≤ n else d ≤ n * Nat.pow 2 (-e).toNat
  if reached then e else e - 1

/-- The bits of the double nearest to `n / d`, or `none` if that lies above the
largest double. The unit of the last place is `2 ^ x`, and `x` is never below
the unit of the subnormal doubles. -/
def nearestBits (n d : Nat) : Option Nat :=
  if n = 0 then some 0
  else
    let x := max (binaryExponent n d - 52) (-1074)
    let m :=
      if 0 ≤ x then roundDiv n (d * Nat.pow 2 x.toNat) else roundDiv (n * Nat.pow 2 (-x).toNat) d
    let bits := (x + 1074).toNat * Nat.pow 2 52 + m
    if bits < 0x7FF0000000000000 then some bits else none

/-- The double nearest to `n / d`, negated if `negative`; `none` if it lies
outside the range of doubles. -/
def nearest (negative : Bool) (n d : Nat) : Option Float :=
  (nearestBits n d).map fun bits =>
    Float.ofBits (UInt64.ofNat (if negative then bits + Nat.pow 2 63 else bits))

/-- Positive or negative infinity. -/
def infinity (negative : Bool) : Float :=
  Float.ofBits (if negative then 0xFFF0000000000000 else 0x7FF0000000000000)

/-- A number that is none. -/
def notANumber : Float := Float.ofBits 0x7FF8000000000000

/-- The double nearest to an integer. -/
def ofInt? (n : Int) : Option Float := nearest (n < 0) n.natAbs 1

/-- The double nearest to the quotient of two integers, `b` not zero. The sign of
a zero quotient is the product of the signs. -/
def quotient? (a b : Int) : Option Float := nearest ((a < 0) != (b < 0)) a.natAbs b.natAbs

/-- What the bits of a double say. -/
inductive Parts where
  | nan
  | infinite (negative : Bool)
  /-- The number `mantissa * 2 ^ exponent`, negated if `negative`. -/
  | finite (negative : Bool) (mantissa : Nat) (exponent : Int)
deriving Repr

/-- Take a double apart. -/
def parts (x : Float) : Parts :=
  let bits := x.toBits.toNat
  let negative := Nat.pow 2 63 ≤ bits
  let body := bits % Nat.pow 2 63
  let biased : Nat := body / Nat.pow 2 52
  let fraction := body % Nat.pow 2 52
  if biased = 2047 then if fraction = 0 then .infinite negative else .nan
  else if biased = 0 then .finite negative fraction (-1074)
  else .finite negative (fraction + Nat.pow 2 52) ((biased : Int) - 1075)

/-- The integer that a double is equal to, if it is one. -/
def exactInt? (x : Float) : Option Int :=
  match parts x with
  | .finite negative m e =>
    let magnitude : Option Nat :=
      if 0 ≤ e then some (m * Nat.pow 2 e.toNat)
      else if m % Nat.pow 2 (-e).toNat = 0 then some (m / Nat.pow 2 (-e).toNat) else none
    magnitude.map fun k => if negative then -(k : Int) else k
  | _ => none

end LeafGrammar.Number
