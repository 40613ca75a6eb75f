/-
A finite number with six digits behind the point.

The rounding is of the exact binary value, so 0.0000005 (which is a little
below one half of the last place) goes down, and only a true half goes to the
even digit.
-/
import BoundSql.Number.Shortest

namespace BoundSql

namespace Fixed

/-- Six digits, with zeros in front where the number has fewer. -/
def sixDigits (n : Nat) : Text :=
  let ds := natText n
  List.replicate (6 - ds.length) '0' ++ ds

/-- The magnitude `significand * 2^scale / 2^1074` in millionths, rounded. -/
def millionths (significand scale : Nat) : Nat :=
  nearestEven (significand * pow2 scale * pow10 6) (pow2 1074)

/-- A number of millionths as a numeral. -/
def text (n : Nat) : Text :=
  natText (n / pow10 6) ++ "." ++ sixDigits (n % pow10 6)

end Fixed

/-- A number with six digits behind the point. A negative number keeps its
sign, also where it rounds to zero. -/
def Binary64.fixedText : Binary64 → Text
  | .finite negative m p _ => signText negative ++ Fixed.text (Fixed.millionths m p)
  | x => x.plainText

end BoundSql
