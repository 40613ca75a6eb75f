/-
The ends of a literal can be seen: every literal has a first and a last
character, and neither is a blank. So a literal in place of a placeholder
changes nothing about which texts are empty and where a trimmed text ends.
-/
import BoundSql.Binding.Literal
import BoundSql.Proofs.TrimFacts

namespace BoundSql

open Text (isBlank Snug)

/-! ## Numerals -/

theorem isBlank_of_isDigit {c : Char} (h : c.isDigit = true) : isBlank c = false := by
  simp only [Char.isDigit, Bool.and_eq_true, decide_eq_true_eq, UInt32.le_iff_toNat_le] at h
  have hlow : 48 ≤ c.toNat := h.1
  have hhigh : c.toNat ≤ 57 := h.2
  simp only [isBlank, Bool.or_eq_false_iff, Bool.and_eq_false_iff, decide_eq_false_iff_not,
    beq_eq_false_iff_ne]
  omega

theorem isBlank_of_isWordChar {c : Char} (h : (c.isAlphanum || c == '_') = true) :
    isBlank c = false := by
  rw [Bool.or_eq_true, beq_iff_eq, Char.isAlphanum, Bool.or_eq_true] at h
  rcases h with (h | h) | rfl
  · have hupper : c.isUpper = true → 65 ≤ c.toNat ∧ c.toNat ≤ 90 := of_decide_eq_true
    have hlower : c.isLower = true → 97 ≤ c.toNat ∧ c.toNat ≤ 122 := fun h =>
      (Bool.and_eq_true_iff.mp h).imp of_decide_eq_true of_decide_eq_true
    have hletter := (Bool.or_eq_true_iff.mp h).imp hupper hlower
    simp only [isBlank, Bool.or_eq_false_iff, Bool.and_eq_false_iff, decide_eq_false_iff_not,
      beq_eq_false_iff_ne]
    omega
  · exact isBlank_of_isDigit h
  · decide

/-- The characters numerals are made of. -/
def isNumeral (c : Char) : Bool := c == '-' || isNumeralChar c

theorem isBlank_of_isNumeral {c : Char} (h : isNumeral c = true) : isBlank c = false := by
  simp only [isNumeral, isNumeralChar, Bool.or_eq_true, beq_iff_eq] at h
  rcases h with rfl | h | rfl
  · decide
  · exact isBlank_of_isDigit h
  · decide

theorem isDigit_of_mem_natText {n : Nat} {c : Char} (h : c ∈ natText n) : c.isDigit = true :=
  Nat.isDigit_of_mem_toDigits (by decide) (by decide) h

theorem isNumeral_of_mem_natText {n : Nat} {c : Char} (h : c ∈ natText n) : isNumeral c = true := by
  simp [isNumeral, isNumeralChar, isDigit_of_mem_natText h]

theorem natText_ne_nil (n : Nat) : natText n ≠ [] := Nat.toDigits_ne_nil

theorem natOfDigits_natText (n : Nat) : natOfDigits (natText n) = n := Nat.ofDigitChars_ten_toDigits

theorem intText_ne_nil (i : Int) : intText i ≠ [] := by
  simp [intText, natText_ne_nil]

theorem isNumeral_of_mem_intText {i : Int} {c : Char} (h : c ∈ intText i) : isNumeral c = true := by
  simp only [intText, List.mem_append] at h
  rcases h with h | h
  · split at h
    · obtain rfl : c = '-' := by simpa using h
      rfl
    · simp at h
  · exact isNumeral_of_mem_natText h

theorem isNumeral_of_mem_sixDigits {n : Nat} {c : Char} (h : c ∈ Fixed.sixDigits n) :
    isNumeral c = true := by
  simp only [Fixed.sixDigits, List.mem_append, List.mem_replicate] at h
  rcases h with ⟨-, rfl⟩ | h
  · rfl
  · exact isNumeral_of_mem_natText h

theorem fixedText_ne_nil {x : Binary64} (h : x.isFinite = true) : x.fixedText ≠ [] := by
  cases x with
  | nan | infinite => simp [Binary64.isFinite] at h
  | finite => simp [Binary64.fixedText, Fixed.text]

theorem isNumeral_of_mem_fixedText {x : Binary64} (hx : x.isFinite = true) {c : Char}
    (h : c ∈ x.fixedText) : isNumeral c = true := by
  cases x with
  | nan | infinite => simp [Binary64.isFinite] at hx
  | finite negative m p =>
    simp only [Binary64.fixedText, Fixed.text, Binary64.signText, List.mem_append] at h
    rcases h with h | (h | h) | h
    · cases negative
      · simp at h
      · obtain rfl : c = '-' := by simpa using h
        rfl
    · exact isNumeral_of_mem_natText h
    · obtain rfl : c = '.' := by simpa using h
      rfl
    · exact isNumeral_of_mem_sixDigits h

/-! ## Literals -/

theorem quoted_ne_nil (t : Text) : quoted t ≠ [] := by simp [quoted]

theorem snug_quoted (t : Text) : Snug (quoted t) where
  head c hc := by
    obtain rfl : '\x27' = c := by simpa [quoted] using hc
    decide
  last c hc := by
    obtain rfl : '\x27' = c := by simpa [quoted, List.getLast?_cons] using hc
    decide

/-- Whether a binding is written as quoted text, unless it is NULL. -/
def Binding.IsText (b : Binding) : Prop := b.kind = .string ∨ b.kind = .json

theorem Binding.literal_of_isSqlNull {b : Binding} (h : b.isSqlNull = true) :
    b.literal = "NULL".toList := by
  rw [Binding.literal, if_pos h]

/-- What a literal is: a word, a quoted text, or a numeral. -/
theorem Binding.literal_cases (b : Binding) :
    b.isSqlNull = true ∧ b.literal = "NULL".toList ∨
      (b.isSqlNull = false ∧ b.IsText) ∧ b.literal = quoted b.value.text ∨
      ¬b.IsText ∧ b.literal ≠ [] ∧ ∀ c ∈ b.literal, isNumeral c = true := by
  cases hnull : b.isSqlNull with
  | true => exact .inl ⟨rfl, literal_of_isSqlNull hnull⟩
  | false =>
    simp only [literal, hnull, IsText]
    cases hkind : b.kind with
    | string | json => exact .inr (.inl ⟨by simp, rfl⟩)
    | bool | int =>
      exact .inr (.inr ⟨by simp, intText_ne_nil _, fun _ => isNumeral_of_mem_intText⟩)
    | float =>
      have hfinite : b.value.isNull = false ∧ b.value.number.isFinite = true := by
        simpa [isSqlNull, hkind] using hnull
      exact .inr (.inr ⟨by simp, fixedText_ne_nil hfinite.2,
        fun _ => isNumeral_of_mem_fixedText hfinite.2⟩)

theorem Binding.literal_ne_nil (b : Binding) : b.literal ≠ [] := by
  rcases b.literal_cases with ⟨-, h⟩ | ⟨-, h⟩ | ⟨-, h, -⟩
  · simp [h]
  · rw [h]
    exact quoted_ne_nil _
  · exact h

theorem Binding.snug_literal (b : Binding) : Snug b.literal := by
  rcases b.literal_cases with ⟨-, h⟩ | ⟨-, h⟩ | ⟨-, -, h⟩
  · rw [h]
    exact .of_all rfl
  · rw [h]
    exact snug_quoted _
  · exact .of_forall fun c hc => isBlank_of_isNumeral (h c hc)

end BoundSql
