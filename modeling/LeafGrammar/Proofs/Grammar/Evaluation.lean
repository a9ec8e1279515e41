import LeafGrammar.Proofs.Grammar.Arithmetic
import LeafGrammar.Proofs.Number.Literal

/-!
# What an expression can come to

The value of a derivation tree is a number, or its evaluation ends with one of a few faults:
an integer literal of its text with too many digits, a literal with a digit that has no value, a
division by zero, or an integer that is too large to be made a double (`Tree.value_computes`).
`Computes text P x` says this of a computation `x` whose result has the property `P`.
-/

namespace LeafGrammar

/-- An integer or a double. -/
def Value.IsNumber : Value → Prop
  | .int _ | .float _ | .nan _ => True
  | _ => False

theorem Value.IsNumber.numeric {v : Value} (h : v.IsNumber) : ∃ a, v.numeric? = some a := by
  cases v with
  | int n => exact ⟨_, rfl⟩
  | float x => exact ⟨_, rfl⟩
  | nan m => exact ⟨_, rfl⟩
  | _ => exact h.elim

namespace Arithmetic

variable {text : List Char}

/-- The fault by which a number is refused as it is written. -/
def Numeral.refusal (d : Numeral) : Fault :=
  let shown := Text.quoted (String.ofList d.val)
  .value (if '.' ∈ d.val then .floatLiteral shown else .intLiteral shown)

/-- The faults of arithmetic on what is written in a text. -/
inductive IsArithmetic (text : List Char) : Fault → Prop where
  /-- An integer in the text has too many digits to be read. -/
  | tooManyDigits {w : List Char} : Pattern.IsRun Text.isDecimalDigit w → w <:+: text →
      digitLimit < w.length → IsArithmetic text (.value (.tooManyDigitsToRead w.length))
  /-- A number in the text has a digit of a later script, which has no value. -/
  | unreadable (d : Numeral) {c : Char} : d.val <:+: text → c ∈ d.val → Text.isLaterDigit c = true →
      IsArithmetic text d.refusal
  | divisionByZero : IsArithmetic text .divisionByZero
  | floatDivisionByZero : IsArithmetic text .floatDivisionByZero
  /-- An integer is too large for a double. -/
  | intToFloat : IsArithmetic text (.overflow .intToFloat)
  /-- The quotient of two integers is. -/
  | quotient : IsArithmetic text (.overflow .quotient)

theorem IsArithmetic.mono {u : List Char} {f : Fault} (h : IsArithmetic u f) (hu : u <:+: text) :
    IsArithmetic text f := by
  cases h with
  | tooManyDigits hw hin hlong => exact .tooManyDigits hw (hin.trans hu) hlong
  | unreadable d hin hc hlater => exact .unreadable d (hin.trans hu) hc hlater
  | divisionByZero => exact .divisionByZero
  | floatDivisionByZero => exact .floatDivisionByZero
  | intToFloat => exact .intToFloat
  | quotient => exact .quotient

theorem IsArithmetic.ne_parse {f : Fault} (h : IsArithmetic text f) (failure : ParseFailure) :
    f ≠ .parse failure := by
  cases h <;> exact nofun

/-- The computation gives a result with the property, or ends with a fault of arithmetic on what is
written in the text. -/
def Computes {α : Type} (text : List Char) (P : α → Prop) : Except Fault α → Prop
  | .ok a => P a
  | .error f => IsArithmetic text f

namespace Computes

variable {α β : Type} {P : α → Prop} {Q : β → Prop}

theorem bind {x : Except Fault α} {k : α → Except Fault β} (hx : Computes text P x)
    (hk : ∀ a, P a → Computes text Q (k a)) : Computes text Q (x >>= k) := by
  cases x with
  | ok a => exact hk a hx
  | error f => exact hx

theorem mono {u : List Char} {x : Except Fault α} (hx : Computes u P x) (hu : u <:+: text) :
    Computes text P x := by
  cases x with
  | ok a => exact hx
  | error f => exact IsArithmetic.mono hx hu

end Computes

/-! ### Numbers -/

theorem isNumber_ofFloat (x : Float) : (Value.ofFloat x).IsNumber := by
  unfold Value.ofFloat
  split <;> trivial

theorem toFloat_computes (a : Value.Numeric) : Computes text (fun _ => True) a.toFloat := by
  cases a with
  | float x => trivial
  | int n =>
    unfold Value.Numeric.toFloat
    simp only
    split
    · trivial
    · exact .intToFloat

/-- An operation on two doubles, one of which may have to be made one. -/
theorem floats_compute (text : List Char) (a b : Value.Numeric)
    {k : Float → Float → Except Fault Value} (hk : ∀ x y, Computes text Value.IsNumber (k x y)) :
    Computes text Value.IsNumber (a.toFloat >>= fun x => b.toFloat >>= fun y => k x y) :=
  (toFloat_computes a).bind fun x _ => (toFloat_computes b).bind fun y _ => hk x y

theorem combine_computes (ints : Int → Int → Int) (floats : Float → Float → Float)
    (a b : Value.Numeric) : Computes text Value.IsNumber (a.combine ints floats b) := by
  have hfloats := floats_compute text a b (k := fun x y => .ok (.ofFloat (floats x y)))
    fun x y => isNumber_ofFloat _
  cases a with
  | float x => exact hfloats
  | int n =>
    cases b with
    | float y => exact hfloats
    | int m => trivial

theorem divide_computes (a b : Value.Numeric) : Computes text Value.IsNumber (a.divide b) := by
  have hfloats := floats_compute text a b
    (k := fun x y => if y == 0 then .error .floatDivisionByZero else .ok (.ofFloat (x / y)))
    fun x y => by
      split
      · exact .floatDivisionByZero
      · exact isNumber_ofFloat _
  cases a with
  | float x => exact hfloats
  | int n =>
    cases b with
    | float y => exact hfloats
    | int m =>
      unfold Value.Numeric.divide
      simp only
      split
      · exact .divisionByZero
      · split
        · exact isNumber_ofFloat _
        · exact .quotient

/-- The operators on numbers. -/
theorem Operator.apply_computes {l : Level} (o : Operator l) {v w : Value} (hv : v.IsNumber)
    (hw : w.IsNumber) : Computes text Value.IsNumber (o.apply v w) := by
  obtain ⟨a, ha⟩ := hv.numeric
  obtain ⟨b, hb⟩ := hw.numeric
  match o with
  | .times =>
    simp only [apply, Value.mul, ha, hb]
    exact combine_computes ..
  | .over =>
    simp only [apply, Value.div, ha, hb]
    exact divide_computes ..
  | .plus =>
    have hadd : v.add w = a.combine (· + ·) (· + ·) b := by
      cases v with
      | int n => simp only [Value.add, ha, hb]
      | float x => simp only [Value.add, ha, hb]
      | nan m => simp only [Value.add, ha, hb]
      | _ => exact hv.elim
    simp only [apply, hadd]
    exact combine_computes ..
  | .minus =>
    simp only [apply, Value.sub, ha, hb]
    exact combine_computes ..

/-! ### Trees -/

/-- What is a digit to patterns only is a later one. -/
theorem isLaterDigit_of_isDigit {c : Char} (hc : Pattern.isDigit c = true)
    (hunknown : Text.isDecimalDigit c = false) : Text.isLaterDigit c = true := by
  rwa [Pattern.isDigit, hunknown, Bool.false_or] at hc

/-- Digits are read as an integer, but for their number or a later one among them. -/
theorem integer_computes {w : List Char} (hw : Pattern.IsRun Pattern.isDigit w) :
    Computes w Value.IsNumber (Value.int <$> Number.readInt (String.ofList w)) := by
  obtain ⟨hne, hdigits⟩ := hw
  by_cases hunknown : ∃ c ∈ w, Text.isDecimalDigit c = false
  · obtain ⟨known, c, rest, rfl, hknown, hc⟩ := Number.exists_first_unknown hunknown
    rw [Number.readInt_unknown hdigits hknown hc]
    split
    · rename_i hlong
      have hrun : Pattern.IsRun Text.isDecimalDigit known :=
        ⟨List.ne_nil_of_length_pos (Nat.lt_of_le_of_lt (Nat.zero_le _) hlong), hknown⟩
      exact .tooManyDigits hrun (List.prefix_append ..).isInfix hlong
    · have hmem : c ∈ known ++ c :: rest := by simp
      have hpoint : '.' ∉ known ++ c :: rest := fun h =>
        Pattern.ne_of_isDigit (hdigits _ h) (by decide) rfl
      have hrefused := IsArithmetic.unreadable ⟨_, .inl ⟨hne, hdigits⟩⟩ (List.infix_refl _) hmem
        (isLaterDigit_of_isDigit (hdigits c hmem) hc)
      rwa [Numeral.refusal, if_neg hpoint] at hrefused
  · have hdecimal : ∀ c ∈ w, Text.isDecimalDigit c = true := by simpa using hunknown
    rw [Number.readInt_digits hne hdecimal]
    split
    · rename_i hlong
      exact .tooManyDigits ⟨hne, hdecimal⟩ (List.infix_refl w) hlong
    · trivial

/-- Digits with a point between them are read as a double, but for a later one among them. -/
theorem double_computes {a b : List Char} (ha : Pattern.IsRun Pattern.isDigit a)
    (hb : Pattern.IsRun Pattern.isDigit b) {x : Except Fault Float}
    (hread : Number.readFloat (String.ofList (a ++ '.' :: b)) = x) :
    Computes (a ++ '.' :: b) Value.IsNumber (Value.ofFloat <$> x) := by
  cases x with
  | ok y => exact isNumber_ofFloat y
  | error f =>
    have hunknown : ∃ c, (c ∈ a ∨ c ∈ b) ∧ Text.isDecimalDigit c = false := by
      refine Classical.byContradiction fun hno => ?_
      have hdecimal (c : Char) (hc : c ∈ a ∨ c ∈ b) : Text.isDecimalDigit c = true := by
        simpa using fun hfalse => hno ⟨c, hc, hfalse⟩
      obtain ⟨y, hy⟩ := Number.readFloat_fraction ha.1 hb.1 (fun c hc => hdecimal c (.inl hc))
        fun c hc => hdecimal c (.inr hc)
      rw [hread] at hy
      cases hy
    obtain ⟨c, hc, hfalse⟩ := hunknown
    have hdigit : Pattern.isDigit c = true := hc.elim (ha.2 c) (hb.2 c)
    have hmem : c ∈ a ++ '.' :: b := by
      rcases hc with hc | hc <;> simp [hc]
    have hrefused := IsArithmetic.unreadable
      ⟨a ++ '.' :: b, .inr ⟨a, '.', b, rfl, ha, by simp, hb⟩⟩ (List.infix_refl _) hmem
      (isLaterDigit_of_isDigit hdigit hfalse)
    rw [Number.readFloat_error hread]
    rwa [Numeral.refusal, if_pos (by simp)] at hrefused

/-- A number as it is written can be read, but for its length and its digits. -/
theorem Numeral.value_computes (d : Numeral) : Computes d.val Value.IsNumber d.value := by
  obtain ⟨w, hw⟩ := d
  unfold Numeral.value
  rcases hw with hrun | ⟨a, x, b, rfl, ha, hx, hb⟩
  · have hpoint : '.' ∉ w := fun h => Pattern.ne_of_isDigit (hrun.2 _ h) (by decide) rfl
    rw [if_neg hpoint]
    exact integer_computes hrun
  · obtain rfl : x = '.' := by simpa using hx
    have hpoint : '.' ∈ a ++ '.' :: b := by simp
    rw [if_pos hpoint]
    generalize hread : Number.readFloat (String.ofList (a ++ '.' :: b)) = y
    exact double_computes ha hb hread

theorem applyAll_computes {l : Level} {v : Value} (hv : v.IsNumber)
    {steps : List (Operator l × Value)} (hsteps : ∀ step ∈ steps, step.2.IsNumber) :
    Computes text Value.IsNumber (applyAll v steps) := by
  induction steps generalizing v with
  | nil => exact hv
  | cons step steps ih =>
    unfold applyAll
    rw [List.foldlM_cons]
    exact (step.1.apply_computes hv (hsteps step List.mem_cons_self)).bind fun w hw =>
      ih hw fun x hx => hsteps x (List.mem_cons_of_mem step hx)

mutual

/-- **A tree has a number as its value, or ends with a fault of arithmetic on its text.** -/
theorem Tree.value_computes : ∀ {p : Phrase} (t : Tree p), Computes t.text Value.IsNumber t.value
  | _, .number before digits => by
    rw [Tree.value, Tree.text]
    exact digits.value_computes.mono (List.suffix_append ..).isInfix
  | _, .group before inside after => by
    rw [Tree.value, Tree.text]
    exact inside.value_computes.mono ⟨before.val ++ ['('], after.val ++ [')'], by simp⟩
  | _, .chain first others => by
    rw [Tree.value, Tree.text]
    have hfirst := first.value_computes.mono (List.prefix_append first.text others.text).isInfix
    have hothers := others.values_compute.mono (List.suffix_append first.text others.text).isInfix
    exact hfirst.bind fun v hv => hothers.bind fun steps hsteps => applyAll_computes hv hsteps

theorem Others.values_compute : ∀ {l : Level} (others : Others l),
    Computes others.text (fun steps => ∀ step ∈ steps, step.2.IsNumber) others.values
  | _, .nil => by
    rw [Others.values]
    exact fun step hstep => absurd hstep List.not_mem_nil
  | _, .cons before operator operand rest => by
    rw [Others.values, Others.text]
    refine (operand.value_computes.mono ⟨before.val ++ [operator.sign], rest.text, by simp⟩).bind
      fun v hv => (rest.values_compute.mono
        ⟨before.val ++ operator.sign :: operand.text, [], by simp⟩).bind fun steps hsteps => ?_
    rintro step (_ | ⟨_, hstep⟩)
    · exact hv
    · exact hsteps step hstep

end

end Arithmetic

end LeafGrammar
