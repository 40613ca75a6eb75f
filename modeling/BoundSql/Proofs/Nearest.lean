/-
Every quotient is rounded to the 64-bit number nearest to it.

The unit of a quotient is the distance of the numbers around it, a power of two
(`unit_bounds`). Rounding takes the nearest multiple of the unit. Numbers with a
smaller unit are all below the quotient, and the largest multiple they stay
under is no nearer than the one taken. So no number at all is nearer, and of two
that are as near the one with the even significand is taken
(`isNearest_ofRatio`). A decimal is rounded as the quotient it is, and the
shortcuts for very large and very small ones change nothing
(`Decimal.toBinary_eq`).
-/
import BoundSql.Binding.Scalar
import Mathlib.Data.Nat.Dist

namespace BoundSql

/-! ## The nearest multiple -/

theorem nearestEven_cases (num den : Nat) :
    (nearestEven num den = num / den ∧ 2 * (num % den) ≤ den) ∨
      (nearestEven num den = num / den + 1 ∧ den ≤ 2 * (num % den)) := by
  unfold nearestEven
  dsimp only
  split
  · exact .inl ⟨rfl, by omega⟩
  · split
    · exact .inr ⟨rfl, by omega⟩
    · split
      · exact .inl ⟨rfl, by omega⟩
      · exact .inr ⟨rfl, by omega⟩

/-- The nearest whole number is within a half of the quotient. -/
theorem nearestEven_near {num den : Nat} (hden : 0 < den) :
    2 * num ≤ 2 * (nearestEven num den * den) + den ∧
      2 * (nearestEven num den * den) ≤ 2 * num + den := by
  have hdiv := Nat.div_add_mod' num den
  have hmod := Nat.mod_lt num hden
  rcases nearestEven_cases num den with ⟨h, hr⟩ | ⟨h, hr⟩ <;> rw [h]
  · omega
  · rw [Nat.succ_mul (num / den)]
    omega

/-- Two multiples are at least one apart. -/
theorem mul_add_le {k q : Nat} (h : k < q) (den : Nat) : k * den + den ≤ q * den := by
  rw [← Nat.succ_mul]
  exact Nat.mul_le_mul_right den h

/-- No multiple is nearer. -/
theorem nearestEven_nearest (num : Nat) {den : Nat} (hden : 0 < den) (k : Nat) :
    Nat.dist num (nearestEven num den * den) ≤ Nat.dist num (k * den) := by
  obtain ⟨hlow, hhigh⟩ := @nearestEven_near num _ hden
  obtain ⟨q, hq⟩ : ∃ q, nearestEven num den = q := ⟨_, rfl⟩
  rw [hq] at hlow hhigh ⊢
  unfold Nat.dist
  rcases Nat.lt_trichotomy k q with h | rfl | h
  · have := mul_add_le h den
    omega
  · exact Nat.le_refl _
  · have := mul_add_le h den
    omega

/-- A multiple with another one as near is even. -/
theorem nearestEven_even {num den k : Nat} (hden : 0 < den) (hk : k ≠ nearestEven num den)
    (htie : Nat.dist num (nearestEven num den * den) = Nat.dist num (k * den)) :
    nearestEven num den % 2 = 0 := by
  have hdiv := Nat.div_add_mod' num den
  have hmod := Nat.mod_lt num hden
  -- the two are next to each other, so the quotient ends in a half
  have hdist : 2 * Nat.dist num (nearestEven num den * den) = den := by
    obtain ⟨hlow, hhigh⟩ := @nearestEven_near num _ hden
    obtain ⟨q, hq⟩ : ∃ q, nearestEven num den = q := ⟨_, rfl⟩
    rw [hq] at hk htie hlow hhigh ⊢
    unfold Nat.dist at htie ⊢
    rcases Nat.lt_or_gt_of_ne hk with h | h
    · have := mul_add_le h den
      omega
    · have := mul_add_le h den
      omega
  have hhalf : 2 * (num % den) = den := by
    unfold Nat.dist at hdist
    rcases nearestEven_cases num den with ⟨hq, hr⟩ | ⟨hq, hr⟩ <;> rw [hq] at hdist
    · omega
    · rw [Nat.succ_mul (num / den)] at hdist
      omega
  unfold nearestEven
  dsimp only
  rw [if_neg (by omega), if_neg (by omega)]
  split <;> omega

/-- The odd number below a limit of 53 bits is left upwards from the middle on. -/
theorem nearestEven_eq_limit_iff {num half : Nat} (hhalf : 0 < half)
    (hlt : num < 2 ^ 53 * (2 * half)) :
    nearestEven num (2 * half) = 2 ^ 53 ↔ (2 ^ 54 - 1) * half ≤ num := by
  have hden : 0 < 2 * half := by omega
  obtain ⟨hlow, hhigh⟩ := @nearestEven_near num _ hden
  have heven := @nearestEven_even num _ (2 ^ 53) hden
  obtain ⟨q, hq⟩ : ∃ q, nearestEven num (2 * half) = q := ⟨_, rfl⟩
  rw [hq] at hlow hhigh heven ⊢
  constructor
  · rintro rfl
    omega
  · intro hmiddle
    rcases Nat.lt_trichotomy q (2 ^ 53) with h | h | h
    · have hle : q * (2 * half) ≤ (2 ^ 53 - 1) * (2 * half) :=
        Nat.mul_le_mul_right _ (Nat.le_sub_one_of_lt h)
      -- only the middle itself is left, which goes to the even number
      have htie : Nat.dist num (q * (2 * half)) = Nat.dist num (2 ^ 53 * (2 * half)) := by
        unfold Nat.dist
        omega
      have hodd : q = 2 ^ 53 - 1 :=
        Nat.eq_of_mul_eq_mul_right hden (by omega)
      have := heven (Nat.ne_of_gt h) htie
      omega
    · exact h
    · have := mul_add_le h (2 * half)
      omega

/-! ## Powers of two -/

theorem pow2_pos (k : Nat) : 0 < pow2 k := Nat.two_pow_pos k

theorem pow2_mul {a b c : Nat} (h : a + b = c) : pow2 a * pow2 b = pow2 c := by
  subst h
  exact (Nat.pow_add 2 a b).symm

/-! ## The unit of a quotient -/

/-- What a format makes of a quotient, by its scale and its number of units. -/
theorem Format.nearest_eq (f : Format) {num den s m : Nat}
    (hs : (num * pow2 f.unit / den).log2 + 1 - f.precision = s)
    (hm : nearestEven (num * pow2 f.unit) (den * pow2 s) = m) :
    f.nearest num den =
      if m = pow2 f.precision then
        if s + 1 ≤ f.maxScale then some (pow2 (f.precision - 1), s + 1) else none
      else if s ≤ f.maxScale then some (m, s) else none := by
  unfold nearest
  dsimp only
  rw [hs, hm]
  split <;> rfl

namespace Binary64

/-- The scale at which a quotient has 53 bits, or the least one. -/
def scaleOf (num den : Nat) : Nat := (num * pow2 1074 / den).log2 + 1 - 53

/-- A quotient has at most 53 bits in front of its unit, and that many unless the
unit is the least one. -/
theorem unit_bounds (num : Nat) {den : Nat} (hden : 0 < den) :
    num * pow2 1074 < 2 ^ 53 * (den * pow2 (scaleOf num den)) ∧
      (scaleOf num den = 0 ∨ 2 ^ 52 * (den * pow2 (scaleOf num den)) ≤ num * pow2 1074) := by
  have hmul : ∀ a b, 2 ^ a * (den * 2 ^ b) = 2 ^ (a + b) * den := fun a b => by
    rw [Nat.pow_add, Nat.mul_comm den, Nat.mul_assoc]
  have hscale : scaleOf num den = (num * pow2 1074 / den).log2 + 1 - 53 := rfl
  -- the dividend by name, since nothing may compute its power
  generalize num * pow2 1074 = n at hscale ⊢
  simp only [pow2, Nat.pow_eq, hmul]
  constructor
  · rw [← Nat.div_lt_iff_lt_mul hden]
    exact Nat.lt_of_lt_of_le Nat.lt_log2_self (Nat.pow_le_pow_right (by decide) (by omega))
  · rcases Nat.eq_zero_or_pos (scaleOf num den) with h | h
    · exact .inl h
    · refine .inr ?_
      rw [← Nat.le_div_iff_mul_le hden, show 52 + scaleOf num den = (n / den).log2 by omega]
      refine Nat.log2_self_le fun hzero => ?_
      rw [hzero, Nat.log2_zero] at hscale
      omega

/-- A magnitude is a multiple of a unit, or less than 52 bits of it. -/
theorem magnitude_cases {m : Nat} (hm : m < pow2 53) (p s : Nat) :
    (∃ k, m * pow2 p = k * pow2 s) ∨ 0 < s ∧ m * pow2 p < 2 ^ 52 * pow2 s := by
  simp only [pow2, Nat.pow_eq] at hm ⊢
  rcases Nat.lt_or_ge p s with h | h
  · refine .inr ⟨Nat.zero_lt_of_lt h, ?_⟩
    calc m * 2 ^ p < 2 ^ 53 * 2 ^ p := Nat.mul_lt_mul_of_pos_right hm (Nat.two_pow_pos p)
      _ = 2 ^ (53 + p) := (Nat.pow_add ..).symm
      _ ≤ 2 ^ (52 + s) := Nat.pow_le_pow_right (by decide) (by omega)
      _ = 2 ^ 52 * 2 ^ s := Nat.pow_add ..
  · refine .inl ⟨m * 2 ^ (p - s), ?_⟩
    rw [Nat.mul_assoc, ← Nat.pow_add, Nat.sub_add_cancel h]

/-! ## Rounding a quotient -/

/-- The quotient in units, rounded. -/
def rounded (num den : Nat) : Nat := nearestEven (num * pow2 1074) (den * pow2 (scaleOf num den))

/-- A rounded quotient has at most 53 bits, or is the first number with 54. -/
theorem rounded_bounds (num : Nat) {den : Nat} (hden : 0 < den) :
    rounded num den ≤ 2 ^ 53 ∧ (scaleOf num den = 0 ∨ 2 ^ 52 ≤ rounded num den) := by
  have hunit : 0 < den * pow2 (scaleOf num den) := Nat.mul_pos hden (pow2_pos _)
  obtain ⟨hlt, hge⟩ := unit_bounds num hden
  have hcases := nearestEven_cases (num * pow2 1074) (den * pow2 (scaleOf num den))
  rw [← rounded] at hcases
  have hdivlt : num * pow2 1074 / (den * pow2 (scaleOf num den)) < 2 ^ 53 :=
    (Nat.div_lt_iff_lt_mul hunit).mpr hlt
  refine ⟨by omega, hge.imp_right fun h => ?_⟩
  have hdivge : 2 ^ 52 ≤ num * pow2 1074 / (den * pow2 (scaleOf num den)) :=
    (Nat.le_div_iff_mul_le hunit).mpr h
  omega

/-- What the format makes of a quotient. -/
theorem nearest_eq (num den : Nat) :
    Format.double.nearest num den =
      if rounded num den = 2 ^ 53 then
        if scaleOf num den + 1 ≤ 2045 then some (2 ^ 52, scaleOf num den + 1) else none
      else if scaleOf num den ≤ 2045 then some (rounded num den, scaleOf num den) else none :=
  -- the unit by name, since nothing may compute its power
  have hunit : Format.double.unit = 1074 := rfl
  Format.double.nearest_eq (by rw [hunit, scaleOf]; rfl) (by rw [hunit, rounded])

/-- A magnitude rounded to keeps the number of units, and an even number of them
means an even significand. -/
theorem nearest_eq_some {num den m p : Nat} (hden : 0 < den)
    (h : Format.double.nearest num den = some (m, p)) :
    Canonical m p ∧ m * pow2 p = rounded num den * pow2 (scaleOf num den) ∧
      (rounded num den % 2 = 0 → m % 2 = 0) := by
  obtain ⟨hle, hge⟩ := rounded_bounds num hden
  rw [nearest_eq] at h
  split at h
  next hfull =>
    -- rounded up to the first number of the next size
    obtain ⟨hp, hmp⟩ := Option.ite_none_right_eq_some.mp h
    obtain ⟨rfl, rfl⟩ := Prod.mk.inj (Option.some.inj hmp)
    refine ⟨⟨by decide, hp, .inl (Nat.le_refl _)⟩, ?_, fun _ => by decide⟩
    rw [hfull]
    simp only [pow2, Nat.pow_eq]
    rw [← Nat.pow_add, ← Nat.pow_add]
    congr 1
    omega
  next hne =>
    obtain ⟨hp, hmp⟩ := Option.ite_none_right_eq_some.mp h
    obtain ⟨rfl, rfl⟩ := Prod.mk.inj (Option.some.inj hmp)
    exact ⟨⟨Nat.lt_of_le_of_ne hle hne, hp, hge.symm⟩, rfl, id⟩

theorem nearest_eq_none_iff {num den : Nat} :
    Format.double.nearest num den = none ↔
      2045 < scaleOf num den ∨ scaleOf num den = 2045 ∧ rounded num den = 2 ^ 53 := by
  rw [nearest_eq]
  split
  next hfull =>
    simp only [ite_eq_right_iff, reduceCtorEq, imp_false, hfull, and_true]
    omega
  next hne =>
    simp only [ite_eq_right_iff, reduceCtorEq, imp_false, hne, and_false, or_false]
    omega

/-- The quotient is at least `2^1024 - 2^970`, the middle between the largest
number and the one that would follow it. -/
def Overflows (num den : Nat) : Prop := (2 ^ 54 - 1) * pow2 970 * den ≤ num

/-- The middle in halves of the unit of the largest numbers. -/
theorem overflows_iff_scaled {num den : Nat} :
    Overflows num den ↔ (2 ^ 54 - 1) * (den * pow2 2044) ≤ num * pow2 1074 := by
  have hpow : pow2 970 * pow2 1074 = pow2 2044 := pow2_mul rfl
  rw [Overflows, ← Nat.mul_le_mul_right_iff (pow2_pos 1074), Nat.mul_right_comm,
    Nat.mul_assoc _ (pow2 970), hpow, Nat.mul_assoc, Nat.mul_comm den]

theorem unit_mul_le (den : Nat) {k s t : Nat} (h : s + k ≤ t) :
    2 ^ k * (den * pow2 s) ≤ den * pow2 t := by
  simp only [pow2, Nat.pow_eq]
  rw [Nat.mul_left_comm, ← Nat.pow_add]
  exact Nat.mul_le_mul_left den (Nat.pow_le_pow_right (by decide) (by omega))

theorem overflows_iff {num den : Nat} (hden : 0 < den) :
    Overflows num den ↔
      2045 < scaleOf num den ∨ scaleOf num den = 2045 ∧ rounded num den = 2 ^ 53 := by
  have hpos : 0 < den * pow2 2044 := Nat.mul_pos hden (pow2_pos 2044)
  obtain ⟨hlt, hge⟩ := unit_bounds num hden
  rw [overflows_iff_scaled]
  rcases Nat.lt_trichotomy (scaleOf num den) 2045 with h | h | h
  · have hsmall := unit_mul_le den (show scaleOf num den + 0 ≤ 2044 by omega)
    refine iff_of_false ?_ (by omega)
    generalize den * pow2 2044 = x at *
    omega
  · have hdouble : den * pow2 (scaleOf num den) = 2 * (den * pow2 2044) := by
      have hpow : pow2 1 * pow2 2044 = pow2 2045 := pow2_mul rfl
      rw [h, ← hpow, Nat.mul_left_comm, show pow2 1 = 2 from rfl]
    rw [hdouble] at hlt
    rw [← nearestEven_eq_limit_iff hpos hlt, rounded, hdouble, h]
    simp only [Nat.lt_irrefl, false_or, true_and]
  · have hlarge := unit_mul_le den (show 2044 + 2 ≤ scaleOf num den by omega)
    have hmany := hge.resolve_left (by omega)
    refine iff_of_true ?_ (.inl h)
    generalize den * pow2 2044 = x at *
    omega

/-! ## The nearest number -/

theorem ofRatio_of_nearest (negative : Bool) {num den m p : Nat}
    (h : Format.double.nearest num den = some (m, p)) (hc : Canonical m p) :
    ofRatio negative num den = .finite negative m p hc := by
  rw [ofRatio, h]
  exact dif_pos hc

/-- How far a magnitude is from a quotient, in fractions of the least magnitude. -/
def distance (num den m p : Nat) : Nat := Nat.dist (num * pow2 1074) (m * pow2 p * den)

/-- What a quotient with a sign is rounded to: infinite if it overflows, else a
number that no other is nearer than, and that has an even significand if another
is as near. -/
def IsNearest (negative : Bool) (num den : Nat) : Binary64 → Prop
  | .nan => False
  | .infinite s => s = negative ∧ Overflows num den
  | .finite s m p _ => s = negative ∧ ¬Overflows num den ∧ ∀ m' p', Canonical m' p' →
      distance num den m p ≤ distance num den m' p' ∧
      (distance num den m p = distance num den m' p' → m * pow2 p ≠ m' * pow2 p' → m % 2 = 0)

/-- No magnitude is nearer than the units a quotient is rounded to. -/
theorem distance_le {num den m p m' p' : Nat} (hden : 0 < den)
    (h : m * pow2 p = rounded num den * pow2 (scaleOf num den)) (hc : Canonical m' p') :
    distance num den m p ≤ distance num den m' p' ∧
      (distance num den m p = distance num den m' p' → m * pow2 p ≠ m' * pow2 p' →
        rounded num den % 2 = 0) := by
  have hunit : 0 < den * pow2 (scaleOf num den) := Nat.mul_pos hden (pow2_pos _)
  have hcomm : ∀ k, k * pow2 (scaleOf num den) * den = k * (den * pow2 (scaleOf num den)) :=
    fun k => by rw [Nat.mul_assoc, Nat.mul_comm (pow2 _)]
  have hnearest := nearestEven_nearest (num * pow2 1074) hunit
  rw [← rounded] at hnearest
  unfold distance
  rw [h, hcomm]
  rcases magnitude_cases hc.1 p' (scaleOf num den) with ⟨k, hk⟩ | ⟨hscale, hsmall⟩
  · -- the other is a number of the same units
    rw [hk, hcomm]
    refine ⟨hnearest k, fun htie hne => nearestEven_even hunit (fun heq => hne ?_) htie⟩
    rw [heq]
    rfl
  · -- the other is below all numbers of this size
    have hbelow := (unit_bounds num hden).2.resolve_left (Nat.ne_of_gt hscale)
    have hless := Nat.mul_lt_mul_of_pos_right hsmall hden
    rw [hcomm] at hless
    have hleast := hnearest (2 ^ 52)
    have hfarther : Nat.dist (num * pow2 1074) (2 ^ 52 * (den * pow2 (scaleOf num den))) <
        Nat.dist (num * pow2 1074) (m' * pow2 p' * den) := by
      unfold Nat.dist
      omega
    exact ⟨Nat.le_of_lt (Nat.lt_of_le_of_lt hleast hfarther),
      fun htie => absurd htie (Nat.ne_of_lt (Nat.lt_of_le_of_lt hleast hfarther))⟩

/-- **A quotient is rounded to the number nearest to it.** -/
theorem isNearest_ofRatio (negative : Bool) {num den : Nat} (hden : 0 < den) :
    IsNearest negative num den (ofRatio negative num den) := by
  cases h : Format.double.nearest num den with
  | none =>
    rw [ofRatio, h]
    exact ⟨rfl, (overflows_iff hden).mpr (nearest_eq_none_iff.mp h)⟩
  | some mp =>
    obtain ⟨m, p⟩ := mp
    obtain ⟨hc, hmul, heven⟩ := nearest_eq_some hden h
    rw [ofRatio_of_nearest negative h hc]
    refine ⟨rfl, fun hover => ?_, fun m' p' hc' => ?_⟩
    · rw [nearest_eq_none_iff.mpr ((overflows_iff hden).mp hover)] at h
      cases h
    · obtain ⟨hle, htie⟩ := distance_le hden hmul hc'
      exact ⟨hle, fun heq hne => heven (htie heq hne)⟩

/-- A quotient that overflows is infinite. -/
theorem ofRatio_of_overflows (negative : Bool) {num den : Nat} (hden : 0 < den)
    (h : Overflows num den) : ofRatio negative num den = .infinite negative := by
  rw [ofRatio, nearest_eq_none_iff.mpr ((overflows_iff hden).mp h)]
  rfl

/-- A quotient below a half of the least magnitude is zero. -/
theorem ofRatio_of_tiny (negative : Bool) {num den : Nat} (h : 2 * (num * pow2 1074) < den) :
    ofRatio negative num den = zero negative := by
  have hden : 0 < den := Nat.zero_lt_of_lt h
  have hscale : scaleOf num den = 0 := by
    rw [scaleOf, Nat.div_eq_of_lt (by omega)]
    rfl
  have hrounded : rounded num den = 0 := by
    obtain ⟨-, hnear⟩ := @nearestEven_near (num * pow2 1074) _ hden
    rw [rounded, hscale, show pow2 0 = 1 from rfl, Nat.mul_one]
    refine Nat.eq_zero_of_not_pos fun hpos => ?_
    have := Nat.le_mul_of_pos_left den hpos
    omega
  refine ofRatio_of_nearest (m := 0) (p := 0) negative ?_ (by decide)
  rw [nearest_eq, hscale, hrounded]
  rfl

end Binary64

/-! ## Decimals -/

theorem mul_lt_pow10 {n x length e places : Nat} (hn : n < pow10 length) (hx : x ≤ pow10 e)
    (h : length + e ≤ places) : n * x < pow10 places :=
  calc n * x ≤ n * pow10 e := Nat.mul_le_mul_left n hx
    _ < pow10 length * pow10 e := Nat.mul_lt_mul_of_pos_right hn (Nat.pow_pos (by decide))
    _ = pow10 (length + e) := (Nat.pow_add ..).symm
    _ ≤ pow10 places := Nat.pow_le_pow_right (by decide) h

theorem mul_pow10_le {n x length e places : Nat} (hn : pow10 length ≤ n) (hx : x ≤ pow10 e)
    (h : e + places ≤ length) : x * pow10 places ≤ n :=
  calc x * pow10 places ≤ pow10 e * pow10 places := Nat.mul_le_mul_right _ hx
    _ = pow10 (e + places) := (Nat.pow_add ..).symm
    _ ≤ pow10 length := Nat.pow_le_pow_right (by decide) h
    _ ≤ n := hn

/-- A number lies between the powers of ten its digits are counted by. -/
theorem pow10_length_natText {n : Nat} (hn : n ≠ 0) :
    pow10 ((natText n).length - 1) ≤ n ∧ n < pow10 (natText n).length := by
  have hpos : 0 < (natText n).length := List.length_pos_iff.mpr Nat.toDigits_ne_nil
  constructor
  · refine Nat.le_of_not_lt fun hlt => ?_
    rcases Nat.eq_zero_or_pos ((natText n).length - 1) with hone | hmore
    · rw [hone] at hlt
      exact hn (Nat.lt_one_iff.mp hlt)
    · have := (Nat.length_toDigits_le_iff (by decide) hmore).mpr hlt
      change (natText n).length ≤ (natText n).length - 1 at this
      omega
  · exact (Nat.length_toDigits_le_iff (by decide) hpos).mp (Nat.le_refl _)

/-- **A decimal is rounded as the quotient it is,** by its digits and the power
of ten its point stands for. -/
theorem Decimal.toBinary_eq (negative : Bool) (n places : Nat) :
    (⟨negative, n, -(places : Int)⟩ : Decimal).toBinary .ofRatio =
      .ofRatio negative n (pow10 places) := by
  have hden : 0 < pow10 places := Nat.pow_pos (by decide)
  unfold toBinary
  dsimp only
  by_cases hzero : n = 0
  · subst hzero
    exact (Binary64.ofRatio_of_tiny negative (by rwa [Nat.zero_mul, Nat.mul_zero])).symm
  · obtain ⟨hlower, hupper⟩ := pow10_length_natText hzero
    simp only [hzero, decide_false, Bool.false_or, decide_eq_true_eq]
    split
    next htiny =>
      have hsmall : pow2 1075 ≤ pow10 400 := by decide +kernel
      have hhalf : pow2 1 * pow2 1074 = pow2 1075 := pow2_mul rfl
      refine (Binary64.ofRatio_of_tiny negative ?_).symm
      rw [Nat.mul_left_comm, show 2 = pow2 1 from rfl, hhalf]
      exact mul_lt_pow10 hupper hsmall (by omega)
    next =>
    split
    next hhuge =>
      have hlarge : (2 ^ 54 - 1) * pow2 970 ≤ pow10 400 := by decide +kernel
      exact (Binary64.ofRatio_of_overflows negative hden
        (mul_pow10_le hlower hlarge (by omega))).symm
    next =>
    split
    next hfraction => rw [Int.natAbs_neg, Int.natAbs_natCast]
    next hwhole =>
      obtain rfl : places = 0 := by omega
      have hone : pow10 (-((0 : Nat) : Int)).natAbs = 1 := rfl
      rw [hone, Nat.mul_one, show pow10 0 = 1 from rfl]

end BoundSql
