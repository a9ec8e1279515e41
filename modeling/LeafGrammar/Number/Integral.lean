/-!
# Integers as they were written

Offsets and repetition bounds are integers, but a caller may also give a truth
value, which counts as one or zero and is still shown as the truth value it is
as long as no arithmetic has been done on it.
-/

namespace LeafGrammar

/-- An integer, or a truth value that stands for one. -/
inductive Integral where
  | num (n : Int)
  | truth (b : Bool)
deriving DecidableEq, Repr, Inhabited

namespace Integral

/-- The number that stands for it in arithmetic and comparison. -/
def toInt : Integral → Int
  | .num n => n
  | .truth b => if b then 1 else 0

/-- Move an offset on by `k` characters. The result is a plain number. -/
def advance (i : Integral) (k : Nat) : Integral := .num (i.toInt + k)

/-- Its decimal digits, or the name of the truth value. -/
def text : Integral → String
  | .num n => toString n
  | .truth true => "True"
  | .truth false => "False"

@[simp] theorem toInt_num (n : Int) : (num n).toInt = n := rfl

@[simp] theorem toInt_advance (i : Integral) (k : Nat) : (i.advance k).toInt = i.toInt + k := rfl

end Integral

end LeafGrammar
