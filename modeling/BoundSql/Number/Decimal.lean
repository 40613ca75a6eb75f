/-
Decimal numerals and the binary numbers nearest to them.

A numeral is kept exact (`Decimal`) until it is rounded once, so a numeral of
any length is rounded correctly. The only shortcut is for magnitudes far
outside both binary formats, whose powers of ten are never computed.
-/
import BoundSql.Number.Binary64

namespace BoundSql

/-- A decimal number: `digits * 10^exponent`, with a sign. -/
structure Decimal where
  negative : Bool
  digits : Nat
  exponent : Int
  deriving DecidableEq

namespace Decimal

/-- A sign at the start of a text, true for a minus, and the rest. -/
def takeSign : Text → Bool × Text
  | '-' :: rest => (true, rest)
  | '+' :: rest => (false, rest)
  | t => (false, t)

/-- A point and the digits behind it, which may be none, at the start of a
text, and the rest. -/
def takeFraction : Text → Text × Text
  | '.' :: rest => (rest.takeWhile Char.isDigit, rest.dropWhile Char.isDigit)
  | t => ([], t)

/-- The power of ten a text consisting of an exponent asks for; no text asks
for the power zero. -/
def exponentOf? : Text → Option Int
  | [] => some 0
  | c :: rest =>
    let (negative, ds) := takeSign rest
    if (c == 'e' || c == 'E') && !ds.isEmpty && ds.all Char.isDigit then
      some (if negative then -(natOfDigits ds : Int) else natOfDigits ds)
    else none

/-- Reads a numeral: an optional sign, digits with an optional point among,
before or behind them, and an optional exponent. -/
def ofText? (t : Text) : Option Decimal :=
  let (negative, unsigned) := takeSign t
  let whole := unsigned.takeWhile Char.isDigit
  let (fraction, rest) := takeFraction (unsigned.dropWhile Char.isDigit)
  if whole.isEmpty && fraction.isEmpty then none
  else (exponentOf? rest).map fun e =>
    ⟨negative, natOfDigits (whole ++ fraction), e - fraction.length⟩

/-- The binary number nearest to a decimal one, where `round` rounds a
quotient. From `10^400` on every format has only infinity, below `10^-400`
only zero. -/
def toBinary (round : Bool → Nat → Nat → Binary64) (d : Decimal) : Binary64 :=
  let magnitude := d.exponent + (natText d.digits).length
  if d.digits = 0 || magnitude < -400 then .zero d.negative
  else if 400 < magnitude then .infinite d.negative
  else if d.exponent < 0 then round d.negative d.digits (pow10 d.exponent.natAbs)
  else round d.negative (d.digits * pow10 d.exponent.natAbs) 1

end Decimal

namespace Binary64

/-- Reads a number with `round`: a decimal numeral, or one of the names `inf`,
`infinity` and `nan` in any case, with an optional sign. -/
def read? (round : Bool → Nat → Nat → Binary64) (t : Text) : Option Binary64 :=
  let (negative, unsigned) := Decimal.takeSign t
  let name := Text.lower unsigned
  if name = "inf" ∨ name = "infinity" then some (.infinite negative)
  else if name = "nan" then some .nan
  else (Decimal.ofText? t).map (·.toBinary round)

/-- Reads a number as the nearest in the 64-bit format. -/
def ofText? (t : Text) : Option Binary64 := read? ofRatio t

/-- Reads a number as the nearest in the 32-bit format. -/
def ofTextSingle? (t : Text) : Option Binary64 := read? ofRatioSingle t

end Binary64

end BoundSql
