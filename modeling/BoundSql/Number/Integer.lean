/-
Whole numbers as decimal text, and the range of 64-bit integers.
-/
import BoundSql.Text.Basic

namespace BoundSql

/-- The power `2^n`. -/
abbrev pow2 (n : Nat) : Nat := Nat.pow 2 n

/-- The power `10^n`. -/
abbrev pow10 (n : Nat) : Nat := Nat.pow 10 n

/-- The decimal digits of a natural number. -/
def natText (n : Nat) : Text := Nat.toDigits 10 n

/-- The decimal digits of an integer, behind a minus if it is negative. -/
def intText (i : Int) : Text := (if i < 0 then "-" else "") ++ natText i.natAbs

/-- The natural number a run of decimal digits stands for. -/
def natOfDigits (ds : Text) : Nat := Nat.ofDigitChars 10 ds 0

/-- Reads an unsigned 64-bit integer: digits, after a plus if there is one.
Zeros in front do not count; a number past the range is no number. -/
def unsigned? (t : Text) : Option UInt64 :=
  let ds := match t with
    | '+' :: rest => rest
    | t => t
  let n := natOfDigits ds
  if !ds.isEmpty && ds.all Char.isDigit && decide (n < pow2 64) then some (.ofNat n) else none

/-- The least 64-bit integer. -/
def int64Low : Int := -(pow2 63 : Int)

/-- The greatest 64-bit integer. -/
def int64High : Int := (pow2 63 : Int) - 1

end BoundSql
