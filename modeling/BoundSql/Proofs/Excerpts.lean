/-
What a log event shows of SQL that is too long for it.

The cut is asked for in bytes, and a character takes up to four of them. Stepping
back from the limit ends at the last place between two characters
(`le_lastBoundary`), so what is shown is the longest beginning within the limit:
the next character would go beyond it (`exists_firstBytes`). Since no character
is longer than four bytes, at most three bytes of the limit are left unused.
-/
import BoundSql.Run.Event

namespace BoundSql

namespace Text

/-- A text that is longer than the limit is cut in front of the character that
lies across it or begins there. -/
theorem exists_firstBytes {t : Text} {limit : Nat} (h : limit < byteSize t) :
    ∃ p c rest, t = p ++ c :: rest ∧ firstBytes limit t = p ∧
      slice? (t.lastBoundary limit) t = some p ∧ limit < byteSize (p ++ [c]) := by
  obtain ⟨p, hp⟩ := Option.isSome_iff_exists.mp (t.isBoundary_lastBoundary limit)
  obtain ⟨⟨rest, ht⟩, hsize⟩ := slice?_eq_some_iff.mp hp
  have hle := t.lastBoundary_le limit
  cases rest with
  | nil =>
    -- the whole text would fit
    rw [List.append_nil] at ht
    rw [ht] at hsize
    omega
  | cons c rest =>
    refine ⟨p, c, rest, ht.symm, ?_, hp, ?_⟩
    · rw [firstBytes, if_neg (Nat.not_le.mpr h)]
      simp only [hp, Option.get_some]
    · have hnext : t.isBoundary (byteSize (p ++ [c])) = true :=
        isBoundary_iff.mpr ⟨p ++ [c], ⟨rest, by rw [List.append_assoc]; exact ht⟩, rfl⟩
      have hlonger : byteSize p < byteSize (p ++ [c]) := by
        have hpos := c.utf8Size_pos
        rw [byteSize_append, byteSize, byteSize]
        omega
      refine Nat.lt_of_not_le fun hfits => ?_
      have := le_lastBoundary hnext hfits
      omega

/-- At most three bytes are stepped over. -/
theorem le_lastBoundary_add_three {t : Text} {limit : Nat} (h : limit < byteSize t) :
    limit ≤ t.lastBoundary limit + 3 := by
  obtain ⟨p, c, rest, -, -, hslice, hlong⟩ := exists_firstBytes h
  obtain ⟨-, hsize⟩ := slice?_eq_some_iff.mp hslice
  have hfour := c.utf8Size_le_four
  rw [byteSize_append, byteSize, byteSize] at hlong
  omega

end Text

/-- **What is logged of SQL.** Without a limit, and within it, all of it. SQL that
is longer is shown up to a place between two characters, and with `...` behind
it. That place is reached from the limit by at most three steps back, so the cut
never fails, and it is the last one possible: with the next character, what is
shown would go beyond the limit. -/
theorem shownSql_longest (limit : Option Nat) (sql : Text) :
    ((∀ m ∈ limit, sql.byteSize ≤ m) → shownSql limit sql = sql) ∧
    ∀ m ∈ limit, m < sql.byteSize → ∃ p c rest, sql = p ++ c :: rest ∧
      shownSql limit sql = p ++ "...".toList ∧ p.byteSize ≤ m ∧ m < (p ++ [c]).byteSize ∧
      Text.slice? (sql.lastBoundary m) sql = some p ∧ m ≤ p.byteSize + 3 := by
  constructor
  · intro hfits
    cases limit with
    | none => rfl
    | some m => exact if_pos (hfits m rfl)
  · rintro m hm hlong
    obtain rfl : limit = some m := hm
    obtain ⟨p, c, rest, hsql, hfirst, hslice, hnext⟩ := Text.exists_firstBytes hlong
    obtain ⟨-, hsize⟩ := Text.slice?_eq_some_iff.mp hslice
    refine ⟨p, c, rest, hsql, ?_, ?_, hnext, hslice, ?_⟩
    · rw [← hfirst]
      exact if_neg (Nat.not_le.mpr hlong)
    · rw [hsize]
      exact sql.lastBoundary_le m
    · rw [hsize]
      exact Text.le_lastBoundary_add_three hlong

/-- A limit inside of a character of four bytes, three of which are left unused; a
first character longer than the limit; and SQL that is as long as the limit. -/
theorem shownSql_longest_sample :
    let sql : Text := "a = é😀".toList
    let face : Text := "😀".toList
    (9 < sql.byteSize ∧ ∃ p c rest, sql = p ++ c :: rest ∧
      shownSql (some 9) sql = p ++ "...".toList ∧ p.byteSize ≤ 9 ∧ 9 < (p ++ [c]).byteSize ∧
      Text.slice? (sql.lastBoundary 9) sql = some p ∧ 9 ≤ p.byteSize + 3) ∧
    shownSql (some 9) sql = "a = é...".toList ∧
    (3 < face.byteSize ∧ ∃ p c rest, face = p ++ c :: rest ∧
      shownSql (some 3) face = p ++ "...".toList ∧ p.byteSize ≤ 3 ∧ 3 < (p ++ [c]).byteSize ∧
      Text.slice? (face.lastBoundary 3) face = some p ∧ 3 ≤ p.byteSize + 3) ∧
    (∀ m ∈ some 10, sql.byteSize ≤ m) ∧ shownSql (some 10) sql = sql := by
  intro sql face
  have hsql : 9 < sql.byteSize := by decide
  have hface : 3 < face.byteSize := by decide
  have hfits : ∀ m ∈ some 10, sql.byteSize ≤ m := by decide
  exact ⟨⟨hsql, (shownSql_longest (some 9) sql).2 9 rfl hsql⟩, by decide,
    ⟨hface, (shownSql_longest (some 3) face).2 3 rfl hface⟩, hfits,
    (shownSql_longest (some 10) sql).1 hfits⟩

end BoundSql
