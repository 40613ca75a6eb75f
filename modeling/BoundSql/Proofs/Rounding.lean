/-
Whole numbers as 64-bit binary ones.

* `ofInt_eq`: an integer of 64 bits is rounded to a multiple of the unit of its
  size.
* `nearestEven_of_isBinary`: a number with a significand of at most 53 bits is
  one already.
* `toInt64_ofInt_iff`: of the 64-bit integers, those with such a significand
  survive being rounded and cut back, and the greatest one, which is rounded up
  and moved back into the range. No others do.
-/
import BoundSql.Proofs.Nearest

namespace BoundSql

variable {num : Nat}

/-! ## Numbers with short significands -/

/-- A number that is a significand of at most 53 bits times a power of two. -/
def IsBinary (n : Nat) : Prop := ∃ m k, m < pow2 53 ∧ n = m * pow2 k

theorem mul_pow2_div (n k : Nat) : n * pow2 k / pow2 k = n := Nat.mul_div_cancel n (pow2_pos k)

theorem isBinary_pow2 (k : Nat) : IsBinary (pow2 k) := ⟨1, k, by decide, (Nat.one_mul _).symm⟩

/-- What is cut off a binary number leaves a short significand. -/
theorem isBinary_div {m : Nat} (hm : m < pow2 53) (p unit : Nat) :
    IsBinary (m * pow2 p / pow2 unit) := by
  simp only [IsBinary, pow2, Nat.pow_eq] at hm ⊢
  by_cases hp : unit ≤ p
  · refine ⟨m, p - unit, hm, ?_⟩
    rw [show p = p - unit + unit by omega, Nat.pow_add, ← Nat.mul_assoc,
      Nat.mul_div_cancel _ (Nat.two_pow_pos unit), Nat.add_sub_cancel]
  · have hle : m * 2 ^ p / 2 ^ unit ≤ m := by
      refine Nat.div_le_of_le_mul ?_
      rw [Nat.mul_comm]
      exact Nat.mul_le_mul_right m (Nat.pow_le_pow_right (by decide) (by omega))
    exact ⟨_, 0, Nat.lt_of_le_of_lt hle hm, by rw [Nat.pow_zero, Nat.mul_one]⟩

/-- A quotient that is whole is its own nearest number. -/
theorem nearestEven_mul (q : Nat) {den : Nat} (hden : 0 < den) : nearestEven (q * den) den = q := by
  simp [nearestEven, Nat.mul_div_cancel q hden, hden]

/-- A short significand is not rounded at the unit of its number. -/
theorem nearestEven_of_isBinary (hnum : num ≠ 0) (h : IsBinary num) {unit s : Nat}
    (hs : s + 52 ≤ num.log2 + unit) :
    nearestEven (num * pow2 unit) (pow2 s) * pow2 s = num * pow2 unit := by
  obtain ⟨m, k, hm, rfl⟩ := h
  simp only [pow2, Nat.pow_eq] at hm hnum hs ⊢
  have hlog : (m * 2 ^ k).log2 < 53 + k := by
    rw [Nat.log2_lt hnum, Nat.pow_add]
    exact Nat.mul_lt_mul_of_pos_right hm (Nat.two_pow_pos k)
  have hwhole : m * 2 ^ k * 2 ^ unit = m * 2 ^ (k + unit - s) * 2 ^ s := by
    rw [Nat.mul_assoc, Nat.mul_assoc, ← Nat.pow_add, ← Nat.pow_add,
      show k + unit - s + s = k + unit by omega]
  rw [hwhole, nearestEven_mul _ (Nat.two_pow_pos s)]

/-! ## The 64-bit format -/

theorem log2_mul_pow2 (hnum : num ≠ 0) (k : Nat) : (num * pow2 k).log2 = num.log2 + k := by
  simp only [pow2, Nat.pow_eq]
  have hne : num * 2 ^ k ≠ 0 := Nat.mul_ne_zero hnum (Nat.two_pow_pos k).ne'
  rw [Nat.log2_eq_iff hne]
  constructor
  · rw [Nat.pow_add]
    exact Nat.mul_le_mul_right _ (Nat.log2_self_le hnum)
  · rw [show num.log2 + k + 1 = num.log2 + 1 + k by omega, Nat.pow_add]
    exact Nat.mul_lt_mul_of_pos_right Nat.lt_log2_self (Nat.two_pow_pos k)

/-- The scale a whole number is rounded at, if that is not below the least one. -/
def Format.scaleOf (f : Format) (num : Nat) : Nat := num.log2 + f.unit + 1 - f.precision

namespace Binary64

theorem scaleOf_one (hnum : num ≠ 0) : scaleOf num 1 = Format.double.scaleOf num := by
  rw [scaleOf, Nat.div_one, log2_mul_pow2 hnum]
  rfl

/-- A number of at most 64 bits is rounded to a finite number: to a multiple of
its unit. -/
theorem ofInt_eq {i : Int} (hi : i ≠ 0) (hle : i.natAbs ≤ pow2 63) :
    ∃ m p h, ofInt i = .finite (decide (i < 0)) m p h ∧ m * pow2 p =
      nearestEven (i.natAbs * pow2 1074) (pow2 (i.natAbs.log2 + 1022)) *
        pow2 (i.natAbs.log2 + 1022) := by
  have hnum : i.natAbs ≠ 0 := Int.natAbs_ne_zero.mpr hi
  have hlog : i.natAbs.log2 < 64 := (Nat.log2_lt hnum).mpr (Nat.lt_of_le_of_lt hle (by decide))
  have hscale : scaleOf i.natAbs 1 = i.natAbs.log2 + 1022 := by
    rw [scaleOf_one hnum]
    simp [Format.scaleOf, Format.double]
  cases hnearest : Format.double.nearest i.natAbs 1 with
  | none =>
    have := nearest_eq_none_iff.mp hnearest
    omega
  | some mp =>
    obtain ⟨m, p⟩ := mp
    obtain ⟨hcanonical, hmul, -⟩ := nearest_eq_some Nat.one_pos hnearest
    rw [rounded, Nat.one_mul, hscale] at hmul
    exact ⟨m, p, hcanonical, ofRatio_of_nearest _ hnearest hcanonical, hmul⟩

theorem truncate_bounds {low high : Int} (h : low ≤ high) (hzero : low ≤ 0 ∧ 0 ≤ high)
    (x : Binary64) : low ≤ x.truncate low high ∧ x.truncate low high ≤ high := by
  cases x with
  | nan => exact hzero
  | infinite negative => cases negative <;> simp [truncate, h]
  | finite => exact ⟨Int.le_max_left _ _, Int.max_le.mpr ⟨h, Int.min_le_left _ _⟩⟩

/-- An integer cut out of a number is an end of the range, or one with a short
significand. -/
theorem truncate_cases (low high : Int) (x : Binary64) :
    x.truncate low high = low ∨ x.truncate low high = high ∨
      IsBinary (x.truncate low high).natAbs := by
  cases x with
  | nan => exact .inr (.inr ⟨0, 0, by decide, rfl⟩)
  | infinite negative => cases negative <;> simp [truncate]
  | finite negative m p h =>
    have hbinary := isBinary_div h.1 p 1074
    simp only [truncate]
    generalize m * pow2 p / pow2 1074 = n at hbinary ⊢
    have habs : (if negative then -(n : Int) else n).natAbs = n := by cases negative <;> simp
    generalize (if negative then -(n : Int) else n) = i at habs ⊢
    by_cases hlow : max low (min high i) = low
    · exact .inl hlow
    · by_cases hhigh : max low (min high i) = high
      · exact .inr (.inl hhigh)
      · rw [show max low (min high i) = i by omega, habs]
        exact .inr (.inr hbinary)

theorem truncate_zero {low high : Int} (hlow : low ≤ 0) (hhigh : 0 ≤ high) :
    (zero false).truncate low high = 0 := by
  simp only [zero, truncate, Nat.zero_mul, Nat.zero_div, Bool.false_eq_true, if_false]
  omega

/-- An integer with a short significand stays as it is. -/
theorem truncate_ofInt {i low high : Int} (hi : IsBinary i.natAbs) (hle : i.natAbs ≤ pow2 63)
    (hlow : low ≤ i) (hhigh : i ≤ high) : (ofInt i).truncate low high = i := by
  by_cases hzero : i = 0
  · subst hzero
    rw [show ofInt 0 = zero false by decide +kernel]
    exact truncate_zero hlow hhigh
  · obtain ⟨m, p, hc, hof, hmul⟩ := ofInt_eq hzero hle
    have hnum : i.natAbs ≠ 0 := Int.natAbs_ne_zero.mpr hzero
    rw [nearestEven_of_isBinary hnum hi (by omega)] at hmul
    have hdiv : m * pow2 p / pow2 1074 = i.natAbs := by rw [hmul, mul_pow2_div]
    rw [hof]
    simp only [truncate]
    -- the quotient by name, since nothing may compute its powers
    generalize m * pow2 p / pow2 1074 = n at hdiv ⊢
    clear hmul
    subst hdiv
    simp only [decide_eq_true_eq]
    split <;> omega

end Binary64

theorem natAbs_toInt_le (n : Int64) : n.toInt.natAbs ≤ pow2 63 := by
  have hlow := n.le_toInt
  have hhigh := n.toInt_lt
  change n.toInt.natAbs ≤ 2 ^ 63
  omega

/-- **What rounding to 53 bits leaves of the 64-bit integers.** An integer is
the same after being made a number and cut back exactly if its significand has
at most 53 bits, or if it is the greatest one. -/
theorem toInt64_ofInt_iff (n : Int64) :
    (Binary64.ofInt n.toInt).toInt64 = n ↔ IsBinary n.toInt.natAbs ∨ n.toInt = int64High := by
  have hlow : int64Low ≤ n.toInt := n.le_toInt
  have hhigh : n.toInt ≤ int64High := Int.le_sub_one_of_lt n.toInt_lt
  have hcut : int64Low ≤ (Binary64.ofInt n.toInt).truncate int64Low int64High ∧
      (Binary64.ofInt n.toInt).truncate int64Low int64High ≤ int64High :=
    Binary64.truncate_bounds (by decide) (by decide) _
  have hsame : (Binary64.ofInt n.toInt).toInt64 = n ↔
      (Binary64.ofInt n.toInt).truncate int64Low int64High = n.toInt := by
    rw [← Int64.toInt_inj, Binary64.toInt64,
      Int64.toInt_ofInt_of_le hcut.1 (Int.lt_add_one_of_le hcut.2)]
  rw [hsame]
  constructor
  · intro h
    rcases Binary64.truncate_cases int64Low int64High (Binary64.ofInt n.toInt) with hend | hend | hb
    · refine .inl ?_
      rw [← h, hend]
      exact isBinary_pow2 63
    · exact .inr (h ▸ hend)
    · exact .inl (h ▸ hb)
  · rintro (hb | hmax)
    · exact Binary64.truncate_ofInt hb (natAbs_toInt_le n) hlow hhigh
    · rw [hmax]
      decide +kernel

end BoundSql
