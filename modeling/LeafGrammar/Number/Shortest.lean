import LeafGrammar.Number.Nearest

/-!
# The shortest decimal of a double

A double is shown with the fewest decimal digits that read back as the same
double; of several such decimals the nearest is taken. The search goes through
the decimal grids from coarse to fine. On each grid only the two neighbours of
the value can be the answer, because the set of reals that read back as the
double is an interval around it.
-/

namespace LeafGrammar.Number

/-- The reals that read back as a double, as fractions over one denominator. -/
structure Interval where
  value : Nat
  low : Nat
  high : Nat
  den : Nat
  /-- The ends themselves read back as the double. -/
  closed : Bool
deriving Repr

/-- The interval of `m * 2 ^ e`, `m` positive. Below a power of two the doubles
lie twice as close. -/
def Interval.ofParts (m : Nat) (e : Int) : Interval :=
  let up := Nat.pow 2 e.toNat
  let down := Nat.pow 2 (-e).toNat
  let below := if m = Nat.pow 2 52 && e != -1074 then 1 else 2
  { value := 4 * m * up, low := (4 * m - below) * up, high := (4 * m + 2) * up
    den := 4 * down, closed := m % 2 = 0 }

/-- A decimal `digits * 10 ^ exponent`. -/
structure Decimal where
  digits : Nat
  exponent : Int
deriving DecidableEq, Repr

/-- The two sides to compare of the decimal `c * 10 ^ p` and the fraction
`n / den`. -/
def Interval.sides (i : Interval) (c : Nat) (p : Int) (n : Nat) : Nat × Nat :=
  if 0 ≤ p then (c * Nat.pow 10 p.toNat * i.den, n) else (c * i.den, n * Nat.pow 10 (-p).toNat)

/-- Does the decimal `c * 10 ^ p` read back as the double? -/
def Interval.holds (i : Interval) (c : Nat) (p : Int) : Bool :=
  let (l, l') := i.sides c p i.low
  let (h, h') := i.sides c p i.high
  if i.closed then l' ≤ l && h ≤ h' else l' < l && h < h'

/-- The distance of `c * 10 ^ p` from the value, in a unit of the grid `p`. -/
def Interval.distance (i : Interval) (c : Nat) (p : Int) : Nat :=
  let (a, b) := i.sides c p i.value
  (a - b) + (b - a)

/-- The neighbour of the value on the grid `10 ^ p` that reads back, if one does:
the nearer one, of two equally near ones the even one. -/
def Interval.onGrid (i : Interval) (p : Int) : Option Nat :=
  let below :=
    if 0 ≤ p then i.value / (Nat.pow 10 p.toNat * i.den)
    else i.value * Nat.pow 10 (-p).toNat / i.den
  match i.holds below p, i.holds (below + 1) p with
  | true, false => some below
  | false, true => some (below + 1)
  | false, false => none
  | true, true =>
    let d := i.distance below p
    let d' := i.distance (below + 1) p
    if d < d' || (d == d' && below % 2 == 0) then some below else some (below + 1)

/-- The exponent of the first decimal digit of the value: the largest `e` of the
`count` candidates from `top` down with `10 ^ e ≤ value`. -/
def Interval.leading (i : Interval) : Nat → Int → Int
  | 0, top => top
  | count + 1, top =>
    let (a, b) := i.sides 1 top i.value
    if a ≤ b then top else Interval.leading i count (top - 1)

/-- The first grid from `p` down that has an answer. -/
def Interval.search (i : Interval) : Nat → Int → Decimal
  | 0, p => ⟨i.value * Nat.pow 10 (-p).toNat / i.den, p⟩
  | count + 1, p =>
    match i.onGrid p with
    | some c => ⟨c, p⟩
    | none => Interval.search i count (p - 1)

/-- The shortest decimal that reads back as `m * 2 ^ e`. -/
def shortest (m : Nat) (e : Int) : Decimal :=
  let i := Interval.ofParts m e
  -- an estimate of the leading exponent that is never too low and low by few
  let top : Int := ((m.log2 : Int) + 1 + e) * 3 / 10 + 12
  i.search 18 (i.leading 64 top)

/-- Where a decimal is written without an exponent and how the exponent looks
otherwise. -/
structure FloatStyle where
  /-- Positional notation is used while the decimal point falls after more than
  `-lowest` and at most `highest` digits. -/
  lowest : Int
  highest : Int
  exponentWidth : Nat
  infinityName : String
  nanName : String

/-- Doubles are written positionally from 0.0001 up to below 10^16, with at least
one digit after the point; the exponent has a sign and two digits. -/
def valueStyle : FloatStyle := ⟨-4, 16, 2, "inf", "nan"⟩

/-- Digits and the place of the decimal point, written out. -/
def FloatStyle.write (style : FloatStyle) (digits : List Char) (point : Int) : List Char :=
  if style.lowest < point && point ≤ style.highest then
    if point ≤ 0 then '0' :: '.' :: (List.replicate (-point).toNat '0' ++ digits)
    else if digits.length ≤ point.toNat then
      digits ++ List.replicate (point.toNat - digits.length) '0' ++ ['.', '0']
    else digits.take point.toNat ++ '.' :: digits.drop point.toNat
  else
    let e := point - 1
    let size := Nat.toDigits 10 e.natAbs
    let mantissa :=
      match digits with
      | [] => []
      | [d] => [d]
      | d :: more => d :: '.' :: more
    mantissa ++ 'e' :: (if e < 0 then '-' else '+')
      :: (List.replicate (style.exponentWidth - size.length) '0' ++ size)

/-- A double as text. -/
def FloatStyle.format (style : FloatStyle) (x : Float) : String :=
  match parts x with
  | .nan => style.nanName
  | .infinite negative => (if negative then "-" else "") ++ style.infinityName
  | .finite negative m e =>
    let sign := if negative then "-" else ""
    if m = 0 then sign ++ "0.0"
    else
      let d := shortest m e
      let ds := Nat.toDigits 10 d.digits
      let trimmed := (ds.reverse.dropWhile (· == '0')).reverse
      sign ++ String.ofList (style.write trimmed (ds.length + d.exponent))

end LeafGrammar.Number
