/-
Numbers in base sixteen.
-/
import BoundSql.Text.Basic

namespace BoundSql

/-- A digit of base sixteen, letters small. -/
def hexDigit (n : Nat) : Char := Nat.digitChar n

/-- The number a hexadecimal digit stands for, letters small or large. -/
def hexValue? (c : Char) : Option Nat :=
  if c.isDigit then some (c.toNat - '0'.toNat)
  else if 'a' ≤ c ∧ c ≤ 'f' then some (c.toNat - 'a'.toNat + 10)
  else if 'A' ≤ c ∧ c ≤ 'F' then some (c.toNat - 'A'.toNat + 10)
  else none

/-- The number hexadecimal digits stand for. -/
def hexNumber? (ds : Text) : Option Nat :=
  ds.foldl (fun n c => do return 16 * (← n) + (← hexValue? c)) (some 0)

end BoundSql
