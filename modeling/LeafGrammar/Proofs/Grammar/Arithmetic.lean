import LeafGrammar.Proofs.Grammar.Lexeme
import LeafGrammar.Proofs.Text.Ranges

/-!
# Arithmetic expressions

The language of the calculator, without the calculator:

    expr   := term (('+' | '-') term)*
    term   := factor (('*' | '/') factor)*
    factor := '(' expr ')' | NUMBER

with optional white space before every token. A derivation tree holds the white space and
the digits that were written, so it has one text (`Tree.text`), and it is well formed by
its type. Sums and products are the same construction at two levels: operands of the level
below, joined by the operators of the level.

`Tree.value` is the reference evaluation. All operands of a sum or product are evaluated
from left to right, then its operators are applied from the left; the first fault is the
answer.
-/

namespace LeafGrammar.Arithmetic

open Grammar (Blanks)

/-- Digits, perhaps with a point and further digits. -/
def IsNumeral (w : List Char) : Prop := Pattern.IsFraction Pattern.isDigit (· == '.') w

/-- A number as it is written. -/
abbrev Numeral := { w : List Char // IsNumeral w }

/-- The number that is written: a double if there is a point in it, else an integer. -/
def Numeral.value (d : Numeral) : Except Fault Value :=
  if '.' ∈ d.val then Value.ofFloat <$> Number.readFloat (String.ofList d.val)
  else Value.int <$> Number.readInt (String.ofList d.val)

/-- The two sorts of operators. -/
inductive Level where
  | product
  | sum
deriving DecidableEq

/-- An operator of a level. -/
inductive Operator : Level → Type where
  | times : Operator .product
  | over : Operator .product
  | plus : Operator .sum
  | minus : Operator .sum

namespace Operator

/-- How an operator is written. -/
def sign {l : Level} : Operator l → Char
  | .times => '*'
  | .over => '/'
  | .plus => '+'
  | .minus => '-'

/-- What an operator does. -/
def apply {l : Level} : Operator l → Value → Value → Except Fault Value
  | .times => Value.mul
  | .over => Value.div
  | .plus => Value.add
  | .minus => Value.sub

end Operator

/-- Operators with their right operands, applied to a value from the left. -/
def applyAll {l : Level} (start : Value) (steps : List (Operator l × Value)) : Except Fault Value :=
  steps.foldlM (fun acc step => step.1.apply acc step.2) start

/-- What a piece of an expression can be. An expression is a sum, a term a product. -/
inductive Phrase where
  | factor
  | chain (l : Level)

/-- What the operators of a level join. -/
def Level.operand : Level → Phrase
  | .product => .factor
  | .sum => .chain .product

mutual

/-- The derivation trees of a phrase. -/
inductive Tree : Phrase → Type where
  | number (before : Blanks) (digits : Numeral) : Tree .factor
  | group (before : Blanks) (inside : Tree (.chain .sum)) (after : Blanks) : Tree .factor
  | chain {l : Level} (first : Tree l.operand) (others : Others l) : Tree (.chain l)

/-- The operators of a chain, each with the operand behind it. -/
inductive Others : Level → Type where
  | nil {l : Level} : Others l
  | cons {l : Level} (before : Blanks) (operator : Operator l) (operand : Tree l.operand)
      (rest : Others l) : Others l

end

mutual

/-- The text that a tree is derived from. -/
def Tree.text : {p : Phrase} → Tree p → List Char
  | _, .number before digits => before.val ++ digits.val
  | _, .group before inside after => before.val ++ '(' :: (inside.text ++ (after.val ++ [')']))
  | _, .chain first others => first.text ++ others.text

/-- The text of operators and operands. -/
def Others.text : {l : Level} → Others l → List Char
  | _, .nil => []
  | _, .cons before operator operand rest =>
    before.val ++ operator.sign :: (operand.text ++ rest.text)

end

mutual

/-- The reference evaluation of a tree. -/
def Tree.value : {p : Phrase} → Tree p → Except Fault Value
  | _, .number _ digits => digits.value
  | _, .group _ inside _ => inside.value
  | _, .chain first others => do
    let start ← first.value
    let steps ← others.values
    applyAll start steps

/-- The values of the operands, from left to right. -/
def Others.values : {l : Level} → Others l → Except Fault (List (Operator l × Value))
  | _, .nil => .ok []
  | _, .cons _ operator operand rest => do
    let v ← operand.value
    let vs ← rest.values
    return (operator, v) :: vs

end

/-! ### Longer chains -/

/-- One more operator and operand at the end. -/
def Others.snoc {l : Level} : Others l → Blanks → Operator l → Tree l.operand → Others l
  | .nil, before, operator, operand => .cons before operator operand .nil
  | .cons b o t rest, before, operator, operand => .cons b o t (rest.snoc before operator operand)

theorem Others.text_snoc {l : Level} (before : Blanks) (operator : Operator l)
    (operand : Tree l.operand) : ∀ others : Others l,
      (others.snoc before operator operand).text =
        others.text ++ (before.val ++ operator.sign :: operand.text)
  | .nil => by simp [Others.snoc, Others.text]
  | .cons b o t rest => by
    simp [Others.snoc, Others.text, Others.text_snoc before operator operand rest]

theorem Others.values_cons_ok {l : Level} (before : Blanks) (operator : Operator l)
    {operand : Tree l.operand} {rest : Others l} {v : Value} {vs : List (Operator l × Value)}
    (hv : operand.value = .ok v) (hvs : rest.values = .ok vs) :
    (Others.cons before operator operand rest).values = .ok ((operator, v) :: vs) := by
  rw [Others.values, hv, hvs]
  rfl

theorem Others.values_snoc {l : Level} (before : Blanks) (operator : Operator l)
    {operand : Tree l.operand} {v : Value} (hv : operand.value = .ok v) :
    ∀ {others : Others l} {vs : List (Operator l × Value)}, others.values = .ok vs →
      (others.snoc before operator operand).values = .ok (vs ++ [(operator, v)])
  | .nil, vs, h => by
    cases h
    exact Others.values_cons_ok before operator hv rfl
  | .cons b o t rest, vs, h => by
    rw [Others.values] at h
    cases ht : t.value with
    | error f =>
      rw [ht] at h
      cases h
    | ok w =>
      cases hr : rest.values with
      | error f =>
        rw [ht, hr] at h
        cases h
      | ok ws =>
        rw [ht, hr] at h
        cases h
        exact Others.values_cons_ok b o ht (Others.values_snoc before operator hv hr)

/-- The value of a chain whose operands have values. -/
theorem Tree.value_chain {l : Level} {first : Tree l.operand} {others : Others l} {v : Value}
    {vs : List (Operator l × Value)} (hv : first.value = .ok v) (hvs : others.values = .ok vs) :
    (Tree.chain first others).value = applyAll v vs := by
  rw [Tree.value, hv, hvs]
  rfl

/-! ### What may come after a phrase -/

/-- The signs of the operators of a level. -/
def Level.signs : Level → List Char
  | .product => ['*', '/']
  | .sum => ['+', '-']

/-- The characters that a token after a phrase can start with. -/
def Phrase.followers : Phrase → List Char
  | .factor => ['*', '/', '+', '-', ')']
  | .chain .product => ['+', '-', ')']
  | .chain .sum => [')']

theorem Level.followers_operand (l : Level) :
    l.operand.followers = l.signs ++ (Phrase.chain l).followers := by
  cases l <;> rfl

theorem Operator.sign_mem {l : Level} (o : Operator l) : o.sign ∈ l.signs := by
  cases o <;> decide

/-- No operator of a level comes after a chain of it. -/
theorem Operator.sign_not_mem_followers {l : Level} (o : Operator l) :
    o.sign ∉ (Phrase.chain l).followers := by
  cases o <;> decide

/-- Every sign of a level is that of an operator. -/
theorem Level.exists_operator {l : Level} {c : Char} (h : c ∈ l.signs) :
    ∃ o : Operator l, o.sign = c := by
  cases l with
  | product =>
    simp only [Level.signs, List.mem_cons, List.not_mem_nil, or_false] at h
    rcases h with rfl | rfl
    · exact ⟨.times, rfl⟩
    · exact ⟨.over, rfl⟩
  | sum =>
    simp only [Level.signs, List.mem_cons, List.not_mem_nil, or_false] at h
    rcases h with rfl | rfl
    · exact ⟨.plus, rfl⟩
    · exact ⟨.minus, rfl⟩

/-- The text goes on as it may after a phrase. -/
abbrev Followed (p : Phrase) (u : List Char) : Prop := Grammar.FollowedBy p.followers u

/-- After an operand comes what joins it to the next one, or what comes after the chain. -/
theorem Others.followed {l : Level} (others : Others l) {u : List Char}
    (hu : Followed (.chain l) u) : Followed l.operand (others.text ++ u) := by
  have hmem (c : Char) : c ∈ l.operand.followers ↔ c ∈ l.signs ∨ c ∈ (Phrase.chain l).followers := by
    rw [Level.followers_operand, List.mem_append]
  cases others with
  | nil =>
    rw [Others.text]
    exact hu.mono fun c hc => (hmem c).mpr (.inr hc)
  | cons before operator operand rest =>
    have htext : (Others.cons before operator operand rest).text ++ u =
        before.val ++ operator.sign :: (operand.text ++ rest.text ++ u) := by
      simp [Others.text]
    rw [htext]
    exact .token before ((hmem _).mpr (.inl operator.sign_mem)) _

/-- No follower of any phrase is white space, a digit or a point. -/
theorem followers_plain (p : Phrase) : ∀ c ∈ p.followers,
    Text.isBlank c = false ∧ Pattern.isDigit c = false ∧ c ≠ '.' := by
  have hfactor : ∀ c ∈ Phrase.factor.followers,
      Text.isBlank c = false ∧ Pattern.isDigit c = false ∧ c ≠ '.' := by
    intro c hc
    simp only [Phrase.followers, List.mem_cons, List.not_mem_nil, or_false] at hc
    rcases hc with rfl | rfl | rfl | rfl | rfl <;> decide
  match p with
  | .factor => exact hfactor
  | .chain .product => exact fun c hc => hfactor c (by simp_all [Phrase.followers])
  | .chain .sum => exact fun c hc => hfactor c (by simp_all [Phrase.followers])

/-- So a number that is followed as a phrase is cannot be continued. -/
theorem stops_numeral {p : Phrase} {u : List Char} (h : Followed p u) :
    Pattern.Stops (fun c => Pattern.isDigit c || c == '.') u := by
  refine h.stops (fun c hblank => ?_) fun c hc => ?_
  · have hpoint : c ≠ '.' := by
      rintro rfl
      exact absurd hblank (by decide)
    simp [Pattern.isDigit_of_isBlank hblank, hpoint]
  · obtain ⟨-, hdigit, hpoint⟩ := followers_plain p c hc
    simp [hdigit, hpoint]

end LeafGrammar.Arithmetic
