/-
The text of a binary number: the fewest decimal digits that read back as the
same number, and of those the ones nearest to it.

`Shortest.ofMagnitude` looks for them on the grids of 1, 2, … digits. The first
grid that has a point among the numbers rounding to `x` decides, and if a grid
has any such point, one of the two next to `x` is one. A `Layout` says how the
digits are written down.
-/
import BoundSql.Number.Decimal

namespace BoundSql

/-- Decimal digits and the place of the point: the number
`0.d₁d₂… * 10^point`. -/
structure Shortest where
  digits : Text
  point : Int
  deriving DecidableEq

namespace Shortest

/-! ## Digits -/

/-- How two candidates equally near to a number are told apart. -/
inductive Tie where
  | up
  | toEven
  deriving DecidableEq

/-- The least `k` with `num / den < 10^k`, for a quotient above zero. -/
def pointOf (num den : Nat) : Int :=
  if num < den then -(((natText ((den - 1) / num)).length - 1 : Nat) : Int)
  else (natText (num / den)).length

/-- A number as `value / den`, between the bounds of what rounds to it. The
bounds themselves round to it iff `closed`. -/
structure Interval where
  low : Nat
  value : Nat
  high : Nat
  den : Nat
  closed : Bool

/-- The numbers that round to `significand * 2^scale / 2^1074`. Below a power
of two the neighbour is half as far away as above. -/
def Interval.of (significand scale : Nat) : Interval :=
  let step := if significand = pow2 52 ∧ scale ≠ 0 then 1 else 2
  { low := (4 * significand - step) * pow2 scale
    value := 4 * significand * pow2 scale
    high := (4 * significand + 2) * pow2 scale
    den := pow2 1076
    closed := significand % 2 == 0 }

/-- The same interval counted in units of `10^unit`. -/
def Interval.inUnits (i : Interval) (unit : Int) : Interval :=
  if unit < 0 then
    let k := pow10 unit.natAbs
    { i with low := i.low * k, value := i.value * k, high := i.high * k }
  else { i with den := i.den * pow10 unit.natAbs }

/-- The whole number of units to write for an interval: the one just below the
value or the one just above, if it rounds to the value, and the nearer if both
do. -/
def Interval.whole? (tie : Tie) (i : Interval) : Option Nat :=
  let d := i.value / i.den
  let below := if i.closed then decide (i.low ≤ d * i.den) else decide (i.low < d * i.den)
  let above :=
    if i.closed then decide ((d + 1) * i.den ≤ i.high) else decide ((d + 1) * i.den < i.high)
  let twice := 2 * (i.value % i.den)
  let nearerAbove :=
    decide (i.den < twice) || (twice == i.den && (tie == .up || d % 2 == 1))
  if above && (!below || nearerAbove) then some (d + 1)
  else if below then some d
  else none

/-- Digits without the zeros at their end. -/
def withoutFinalZeros (ds : Text) : Text := (ds.reverse.dropWhile (· == '0')).reverse

/-- The digits of a whole number of units of `10^unit`. -/
def ofWhole (n : Nat) (unit : Int) : Shortest :=
  let ds := natText n
  ⟨withoutFinalZeros ds, ds.length + unit⟩

/-- The shortest digits of the magnitude `significand * 2^scale / 2^1074`.
Seventeen digits always suffice. -/
def ofMagnitude (tie : Tie) (significand scale : Nat) : Shortest :=
  if significand = 0 then ⟨['0'], 1⟩
  else
    let i := Interval.of significand scale
    let point := pointOf i.value i.den
    let onGrid (n : Nat) : Option Shortest :=
      let unit := point - (n + 1 : Nat)
      ((i.inUnits unit).whole? tie).map (ofWhole · unit)
    ((List.range 17).findSome? onGrid).getD ⟨['0'], 1⟩

/-! ## Layout -/

/-- How digits are written: which decimal exponents get no exponent mark,
whether a whole number keeps a point, and which candidate wins a tie. -/
structure Layout where
  tie : Tie
  positional : Int → Bool
  wholePoint : Bool

/-- The digits with the point among them. -/
def positionalText (l : Layout) (s : Shortest) : Text :=
  if s.point ≤ 0 then "0." ++ List.replicate s.point.natAbs '0' ++ s.digits
  else
    let k := s.point.natAbs
    if s.digits.length ≤ k then
      s.digits ++ List.replicate (k - s.digits.length) '0' ++ (if l.wholePoint then ".0" else "")
    else s.digits.take k ++ "." ++ s.digits.drop k

/-- One digit before the point, and a signed exponent. -/
def exponentText (s : Shortest) : Text :=
  let e := s.point - 1
  s.digits.take 1 ++ (if s.digits.length ≤ 1 then [] else '.' :: s.digits.drop 1) ++
    ['e', if e < 0 then '-' else '+'] ++ natText e.natAbs

/-- The text of the digits in a layout. -/
def text (l : Layout) (s : Shortest) : Text :=
  if l.positional (s.point - 1) then positionalText l s else exponentText s

/-- Plain notation: never an exponent, no point in a whole number, of two
equally near candidates the larger. -/
def plain : Layout := ⟨.up, fun _ => true, false⟩

end Shortest

namespace Binary64

/-- The sign in front of a number. -/
def signText (negative : Bool) : Text := if negative then "-" else ""

/-- A finite magnitude with its sign, in a layout. -/
def finiteText (l : Shortest.Layout) (negative : Bool) (significand scale : Nat) : Text :=
  signText negative ++ (Shortest.ofMagnitude l.tie significand scale).text l

/-- A number in plain notation. -/
def plainText : Binary64 → Text
  | .nan => "NaN"
  | .infinite negative => signText negative ++ "inf"
  | .finite negative m p _ => finiteText Shortest.plain negative m p

end Binary64

end BoundSql
