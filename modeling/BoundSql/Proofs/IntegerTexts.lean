/-
Integers that are given as text.

The text of an integer is read in full (`Decimal.ofText?_intText`), but as a
number, and a number has 53 bits. So what is written for the text of a 64-bit
integer is that integer rounded and cut back (`integer_intText`), and
`text_kept_iff` says which integers that leaves alone.
-/
import BoundSql.Proofs.LiteralFacts
import BoundSql.Proofs.Numerals
import BoundSql.Proofs.Rounding

namespace BoundSql

/-! ## Reading the text of an integer -/

theorem numeral_intText (i : Int) : Numeral (intText i) (decide (i < 0)) i.natAbs 0 := by
  have hdigits : UnsignedNumeral (natText i.natAbs) i.natAbs 0 := by
    have hwhole := UnsignedNumeral.whole (natText_ne_nil i.natAbs) fun _ => isDigit_of_mem_natText
    rwa [natOfDigits_natText] at hwhole
  by_cases hi : i < 0
  · simpa [intText, hi] using Numeral.minus hdigits
  · simpa [intText, hi] using Numeral.unsigned hdigits

/-- The text of an integer is a numeral, and nothing of it is left over. -/
theorem Decimal.ofText?_intText (i : Int) :
    ofText? (intText i) = some ⟨decide (i < 0), i.natAbs, 0⟩ :=
  (ofText?_eq_some_iff (no_exponent (numeral_intText i).isNumericChar)).mpr
    ⟨_, _, _, numeral_intText i, rfl⟩

/-- Two integers with the same text are the same. -/
theorem intText_inj {i j : Int} : intText i = intText j ↔ i = j := by
  refine ⟨fun h => ?_, congrArg intText⟩
  have hread :
      some (⟨decide (i < 0), i.natAbs, 0⟩ : Decimal) = some ⟨decide (j < 0), j.natAbs, 0⟩ := by
    rw [← Decimal.ofText?_intText, h, Decimal.ofText?_intText]
  simp only [Option.some.injEq, Decimal.mk.injEq, decide_eq_decide] at hread
  omega

/-! ## The number a text of an integer starts with -/

theorem trimStart_intText (i : Int) : Text.trimStart (intText i) = intText i := by
  obtain ⟨c, t, ht⟩ := List.exists_cons_of_ne_nil (intText_ne_nil i)
  have hc : Text.isBlank c = false :=
    isBlank_of_isNumeral (isNumeral_of_mem_intText (i := i) (by simp [ht]))
  rw [ht, Text.trimStart, List.dropWhile_cons, hc]
  rfl

theorem leadingNumber_intText (i : Int) : leadingNumber (intText i) = .ofInt i := by
  rw [leadingNumber, trimStart_intText, (numeral_intText i).leadingDecimal?]
  exact Decimal.toBinary_eq (decide (i < 0)) i.natAbs 0

/-! ## What is written for the text of an integer -/

/-- The text of a 64-bit integer, read as an integer. -/
theorem integer_intText (n : Int64) :
    (Scalar.string (intText n.toInt)).integer = (Binary64.ofInt n.toInt).toInt64 := by
  rw [Scalar.integer, leadingNumber_intText]

/-- **What an integer given as text is written as.** The text of a 64-bit
integer, bound as an integer, is written as that integer rounded to 53 bits and
cut back into the range. This is the literal of the integer itself exactly if
the integer has at most 53 significant bits (as all up to `2^53` have), or is
the greatest one. -/
theorem text_kept_iff (n : Int64) :
    ∃ b, Binding.ofParts (.string (intText n.toInt)) (some "int".toList) = .ok b ∧
      b.literal = intText (Binary64.ofInt n.toInt).toInt64.toInt ∧
      (b.literal = (⟨.int n, .int⟩ : Binding).literal ↔
        IsBinary n.toInt.natAbs ∨ n.toInt = int64High) := by
  refine ⟨⟨.string (intText n.toInt), .int⟩, rfl, ?_, ?_⟩
  · rw [← integer_intText]
    rfl
  · have hown : (⟨.int n, .int⟩ : Binding).literal = intText n.toInt := rfl
    have htext : (⟨.string (intText n.toInt), .int⟩ : Binding).literal =
        intText (Binary64.ofInt n.toInt).toInt64.toInt := by
      rw [← integer_intText]
      rfl
    rw [hown, htext, intText_inj, Int64.toInt_inj, toInt64_ofInt_iff]

/-- The text of the first integer with 54 bits that is odd is written as the
even one below. -/
theorem text_of_odd_not_kept :
    ∃ b, Binding.ofParts (.string "9007199254740993".toList) (some "int".toList) = .ok b ∧
      b.literal = "9007199254740992".toList ∧
      (⟨.int 9007199254740993, .int⟩ : Binding).literal = "9007199254740993".toList := by
  refine ⟨⟨.string "9007199254740993".toList, .int⟩, rfl, ?_, ?_⟩ <;> decide +kernel

end BoundSql
