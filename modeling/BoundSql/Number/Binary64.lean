/-
Binary floating-point numbers of 64 bits, as exact values.

A finite number is a sign, a significand below `2^53` and a scale: its
magnitude is `significand * 2^scale / 2^1074`. Everything is computed in
natural numbers, so there is no rounding but the one `Format.nearest` does,
and each number has exactly one form (`Canonical`).
-/
import BoundSql.Number.Integer

namespace BoundSql

/-! ## Rounding -/

/-- The natural number nearest to `num / den`; a half goes to the even one. -/
def nearestEven (num den : Nat) : Nat :=
  let q := num / den
  let r := num % den
  if 2 * r < den then q
  else if den < 2 * r then q + 1
  else if q % 2 = 0 then q else q + 1

/-- A binary format: how many bits a significand has, the exponent of the
smallest positive number (`2^-unit`), and the largest scale. -/
structure Format where
  precision : Nat
  unit : Nat
  maxScale : Nat

/-- The 64-bit format. -/
def Format.double : Format := ⟨53, 1074, 2045⟩

/-- The 32-bit format. -/
def Format.single : Format := ⟨24, 149, 253⟩

/-- The significand and scale nearest to `num / den`, ties to the even
significand; nothing if the value rounds past the largest finite number. -/
def Format.nearest (f : Format) (num den : Nat) : Option (Nat × Nat) :=
  let n := num * pow2 f.unit
  let scale := (n / den).log2 + 1 - f.precision
  let m := nearestEven n (den * pow2 scale)
  let (m, scale) := if m = pow2 f.precision then (pow2 (f.precision - 1), scale + 1) else (m, scale)
  if scale ≤ f.maxScale then some (m, scale) else none

/-! ## Numbers -/

/-- The one form of a magnitude: a scale above zero only with a full
significand. -/
def Canonical (significand scale : Nat) : Prop :=
  significand < pow2 53 ∧ scale ≤ 2045 ∧ (pow2 52 ≤ significand ∨ scale = 0)

instance (m p : Nat) : Decidable (Canonical m p) := by unfold Canonical; infer_instance

/-- A 64-bit binary floating-point number. All not-a-numbers are one. -/
inductive Binary64 where
  | nan
  | infinite (negative : Bool)
  | finite (negative : Bool) (significand scale : Nat) (canonical : Canonical significand scale)
  deriving DecidableEq

namespace Binary64

/-- Zero with a sign. -/
def zero (negative : Bool) : Binary64 := .finite negative 0 0 (by decide)

instance : Inhabited Binary64 := ⟨zero false⟩

/-- The number of a sign and a canonical magnitude; what is not canonical is
too large to be finite. -/
def ofMagnitude (negative : Bool) (m p : Nat) : Binary64 :=
  if h : Canonical m p then .finite negative m p h else .infinite negative

/-- The number of a significand and scale that were rounded; what rounded past
all of them is infinite. -/
def ofRounded (negative : Bool) : Option (Nat × Nat) → Binary64
  | some (m, p) => ofMagnitude negative m p
  | none => .infinite negative

/-- The number nearest to `num / den`, with the sign `negative`. -/
def ofRatio (negative : Bool) (num den : Nat) : Binary64 :=
  ofRounded negative (Format.double.nearest num den)

/-- The number nearest to `num / den` in the 32-bit format. -/
def ofRatioSingle (negative : Bool) (num den : Nat) : Binary64 :=
  match Format.single.nearest num den with
  | some (m, p) => ofRatio negative (m * pow2 p) (pow2 Format.single.unit)
  | none => .infinite negative

/-- The number nearest to an integer. -/
def ofInt (i : Int) : Binary64 := ofRatio (decide (i < 0)) i.natAbs 1

/-- Neither infinite nor a not-a-number. -/
def isFinite : Binary64 → Bool
  | .finite .. => true
  | _ => false

/-- The integer between a number and zero that is nearest to the number, moved
to the nearer end of `low .. high` when it lies outside; zero for a
not-a-number. -/
def truncate (low high : Int) : Binary64 → Int
  | .nan => 0
  | .infinite true => low
  | .infinite false => high
  | .finite negative m p _ =>
    let n : Nat := m * pow2 p / pow2 1074
    max low (min high (if negative then -(n : Int) else n))

/-- The 64-bit pattern: sign, biased exponent, fraction. A not-a-number has
the pattern of the quiet one. -/
def bits : Binary64 → Nat
  | .nan => 0x7FF8000000000000
  | .infinite negative => signBit negative + 0x7FF0000000000000
  | .finite negative m p _ =>
    signBit negative + if m < pow2 52 then m else (p + 1) * pow2 52 + (m - pow2 52)
where
  signBit (negative : Bool) : Nat := if negative then pow2 63 else 0

end Binary64

end BoundSql
