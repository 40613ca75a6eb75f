/-
The size of text in bytes of UTF-8, and its longest beginning within a given
number of bytes.

Text can be cut only between two characters (`slice?_eq_some_iff`). So the place
for the cut is found by stepping back from the limit, byte by byte, until no
character lies across it. `isBoundary_lastBoundary` says that this always ends
at such a place, and the cut is made with that proof.
-/
import BoundSql.Text.Basic

namespace BoundSql.Text

/-! ## Sizes and cuts -/

/-- How many bytes the text takes in UTF-8. -/
def byteSize : Text → Nat
  | [] => 0
  | c :: rest => c.utf8Size + byteSize rest

theorem byteSize_append (t u : Text) : byteSize (t ++ u) = byteSize t + byteSize u := by
  induction t with
  | nil => simp [byteSize]
  | cons c t ih => simp [byteSize, ih, Nat.add_assoc]

theorem byteSize_eq_zero {t : Text} : byteSize t = 0 ↔ t = [] := by
  cases t with
  | nil => simp [byteSize]
  | cons c t =>
    have hpos := c.utf8Size_pos
    simp only [byteSize, reduceCtorEq, iff_false]
    omega

/-- The beginning of the text that takes `n` bytes. There is none if the text is
shorter, or if a character lies across that place. -/
def slice? : Nat → Text → Option Text
  | 0, _ => some []
  | _ + 1, [] => none
  | n + 1, c :: rest =>
    if c.utf8Size ≤ n + 1 then (slice? (n + 1 - c.utf8Size) rest).map (c :: ·) else none

theorem slice?_eq_some_iff {n : Nat} {t p : Text} :
    slice? n t = some p ↔ p <+: t ∧ byteSize p = n := by
  induction t generalizing n p with
  | nil => cases n <;> simp +contextual [slice?, byteSize, eq_comm]
  | cons c t ih =>
    cases n with
    | zero =>
      rw [slice?, byteSize_eq_zero, Option.some.injEq, eq_comm]
      exact ⟨fun h => ⟨h ▸ List.nil_prefix, h⟩, fun h => h.2⟩
    | succ n =>
      have hcons : (p <+: c :: t ∧ byteSize p = n + 1) ↔
          ∃ q, (q <+: t ∧ byteSize (c :: q) = n + 1) ∧ c :: q = p := by
        rw [List.prefix_cons_iff]
        constructor
        · rintro ⟨rfl | ⟨q, rfl, hq⟩, hsize⟩
          · simp [byteSize] at hsize
          · exact ⟨q, ⟨hq, hsize⟩, rfl⟩
        · rintro ⟨q, ⟨hq, hsize⟩, rfl⟩
          exact ⟨.inr ⟨q, rfl, hq⟩, hsize⟩
      rw [hcons, slice?]
      split
      next hle =>
        have hrest : ∀ q : Text, byteSize (c :: q) = n + 1 ↔ byteSize q = n + 1 - c.utf8Size := by
          intro q
          rw [byteSize]
          omega
        simp only [Option.map_eq_some_iff, ih, hrest]
      next hlt =>
        have hlong : ∀ q : Text, byteSize (c :: q) ≠ n + 1 := by
          intro q
          rw [byteSize]
          omega
        simp [hlong]

/-! ## Places for a cut -/

/-- Whether the text can be cut behind its first `n` bytes. -/
def isBoundary (t : Text) (n : Nat) : Bool := (slice? n t).isSome

theorem isBoundary_iff {t : Text} {n : Nat} :
    t.isBoundary n = true ↔ ∃ p, p <+: t ∧ byteSize p = n := by
  rw [isBoundary, Option.isSome_iff_exists]
  exact exists_congr fun p => slice?_eq_some_iff

/-- The last place at `n` or before at which the text can be cut. -/
def lastBoundary (t : Text) : Nat → Nat
  | 0 => 0
  | n + 1 => if t.isBoundary (n + 1) then n + 1 else t.lastBoundary n

theorem isBoundary_lastBoundary (t : Text) (n : Nat) : t.isBoundary (t.lastBoundary n) = true := by
  induction n with
  | zero => exact isBoundary_iff.mpr ⟨[], List.nil_prefix, rfl⟩
  | succ n ih =>
    rw [lastBoundary]
    split
    next h => exact h
    next => exact ih

theorem lastBoundary_le (t : Text) (n : Nat) : t.lastBoundary n ≤ n := by
  induction n with
  | zero => exact Nat.le_refl 0
  | succ n ih =>
    rw [lastBoundary]
    split <;> omega

/-- No place that was stepped over can be cut at. -/
theorem le_lastBoundary {t : Text} {k n : Nat} (hk : t.isBoundary k = true) (hle : k ≤ n) :
    k ≤ t.lastBoundary n := by
  induction n with
  | zero => exact hle
  | succ n ih =>
    rw [lastBoundary]
    split
    next => exact hle
    next h =>
      have hne : k ≠ n + 1 := fun heq => h (heq ▸ hk)
      exact ih (by omega)

/-- The longest beginning of the text that takes at most `limit` bytes. -/
def firstBytes (limit : Nat) (t : Text) : Text :=
  if byteSize t ≤ limit then t
  else (slice? (t.lastBoundary limit) t).get (t.isBoundary_lastBoundary limit)

end BoundSql.Text
