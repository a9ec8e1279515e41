/-!
# Reading bytes as text

Bytes are read strictly as UTF-8: overlong forms, surrogates and code points
above U+10FFFF are refused, and the first offence is reported with the bytes it
covers. Then every line end, `\r\n` and a lone `\r` included, becomes `\n`.
-/

namespace LeafGrammar.Text.Utf8

/-- Why a run of bytes is no UTF-8. -/
inductive Offence where
  | start
  | continuation
  | truncated
deriving DecidableEq, Repr

/-- The words for an offence. -/
def Offence.reason : Offence → String
  | .start => "invalid start byte"
  | .continuation => "invalid continuation byte"
  | .truncated => "unexpected end of data"

/-- The first offence in a run of bytes: it covers `count` bytes from `position`
on, the first of which is `byte`. -/
structure DecodeError where
  byte : UInt8
  position : Nat
  count : Nat
  offence : Offence
deriving DecidableEq, Repr

/-- Is `b` one of the bytes 0x80 to 0xBF? -/
def isContinuation (b : UInt8) : Bool := 0x80 ≤ b && b ≤ 0xBF

/-- May `b` be the second byte after `lead`? Overlong forms, surrogates and code
points above the last one are ruled out here. -/
def isSecond (lead b : UInt8) : Bool :=
  isContinuation b &&
    !(lead == 0xE0 && b < 0xA0) && !(lead == 0xED && 0xA0 ≤ b) &&
    !(lead == 0xF0 && b < 0x90) && !(lead == 0xF4 && 0x90 ≤ b)

/-- The six low bits of a continuation byte. -/
def low (b : UInt8) : Nat := b.toNat % 64

/-- Read the bytes, of which the first stands at position `at`; `acc` holds the
characters read so far, last first. -/
def decodeFrom : List UInt8 → Nat → List Char → Except DecodeError (List Char)
  | [], _, acc => .ok acc.reverse
  | lead :: rest, at_, acc =>
    let stop (count : Nat) (offence : Offence) : Except DecodeError (List Char) :=
      .error ⟨lead, at_, count, offence⟩
    if lead < 0x80 then decodeFrom rest (at_ + 1) (Char.ofNat lead.toNat :: acc)
    else if lead < 0xC2 || 0xF4 < lead then stop 1 .start
    else if lead < 0xE0 then
      match rest with
      | [] => stop 1 .truncated
      | b :: rest =>
        if isSecond lead b then
          decodeFrom rest (at_ + 2) (Char.ofNat ((lead.toNat - 0xC0) * 64 + low b) :: acc)
        else stop 1 .continuation
    else if lead < 0xF0 then
      match rest with
      | [] => stop 1 .truncated
      | [b] => if isSecond lead b then stop 2 .truncated else stop 1 .continuation
      | b :: c :: rest =>
        if !isSecond lead b then stop 1 .continuation
        else if !isContinuation c then stop 2 .continuation
        else
          let n := ((lead.toNat - 0xE0) * 64 + low b) * 64 + low c
          decodeFrom rest (at_ + 3) (Char.ofNat n :: acc)
    else
      match rest with
      | [] => stop 1 .truncated
      | [b] => if isSecond lead b then stop 2 .truncated else stop 1 .continuation
      | [b, c] =>
        if !isSecond lead b then stop 1 .continuation
        else if isContinuation c then stop 3 .truncated
        else stop 2 .continuation
      | b :: c :: d :: rest =>
        if !isSecond lead b then stop 1 .continuation
        else if !isContinuation c then stop 2 .continuation
        else if !isContinuation d then stop 3 .continuation
        else
          let n := (((lead.toNat - 0xF0) * 64 + low b) * 64 + low c) * 64 + low d
          decodeFrom rest (at_ + 4) (Char.ofNat n :: acc)

/-- Every line end as `\n`; `acc` holds the characters so far, last first. -/
def unifyLines : List Char → List Char → List Char
  | [], acc => acc.reverse
  | '\r' :: '\n' :: rest, acc => unifyLines rest ('\n' :: acc)
  | '\r' :: rest, acc => unifyLines rest ('\n' :: acc)
  | c :: rest, acc => unifyLines rest (c :: acc)

/-- The text that the bytes stand for. -/
def decode (bytes : List UInt8) : Except DecodeError (List Char) :=
  (decodeFrom bytes 0 []).map fun cs => unifyLines cs []

end LeafGrammar.Text.Utf8
