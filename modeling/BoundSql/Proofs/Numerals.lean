/-
Text is read by the longest numeral it starts with.

The numerals are given by a grammar that knows nothing of how they are read
(`Numeral`). Reading accepts them and, of texts without an exponent, nothing
else (`ofText?_eq_some_iff`).

The numeral that a text starts with is looked for in its first characters that
could belong to one. These are too many, as in `1.2.3` or in a lone sign, so the
search goes backwards from their end. No numeral at the start of the text reaches
beyond them (`Numeral.in_region`), so none that is longer than the one found is
missed. All of these characters take one byte each, so the search never cuts a
character (`slice?_of_le_region`).
-/
import BoundSql.Proofs.Nearest
import Mathlib.Data.List.Infix
import Mathlib.Data.List.TakeWhile

namespace BoundSql

/-! ## The grammar -/

/-- Decimal digits only. -/
def AllDigits (ds : Text) : Prop := ∀ c ∈ ds, c.isDigit = true

instance (ds : Text) : Decidable (AllDigits ds) :=
  decidable_of_iff (ds.all Char.isDigit = true) List.all_eq_true

/-- Digits, which a point and further digits may follow, or a point and at least
one digit; with the number that all the digits stand for, and how many of them
are behind the point. -/
inductive UnsignedNumeral : Text → Nat → Nat → Prop
  -- `12`
  | whole {ds : Text} : ds ≠ [] → AllDigits ds → UnsignedNumeral ds (natOfDigits ds) 0
  -- `12.` and `12.5`
  | pointed {ds fs : Text} : ds ≠ [] → AllDigits ds → AllDigits fs →
      UnsignedNumeral (ds ++ '.' :: fs) (natOfDigits (ds ++ fs)) fs.length
  -- `.5`
  | fraction {fs : Text} : fs ≠ [] → AllDigits fs →
      UnsignedNumeral ('.' :: fs) (natOfDigits fs) fs.length

/-- A numeral behind an optional sign, and whether the sign is a minus. -/
inductive Numeral : Text → Bool → Nat → Nat → Prop
  | unsigned {t : Text} {n places : Nat} : UnsignedNumeral t n places → Numeral t false n places
  | plus {t : Text} {n places : Nat} : UnsignedNumeral t n places →
      Numeral ('+' :: t) false n places
  | minus {t : Text} {n places : Nat} : UnsignedNumeral t n places →
      Numeral ('-' :: t) true n places

variable {t : Text} {negative : Bool} {n places : Nat}

theorem UnsignedNumeral.ne_nil (h : UnsignedNumeral t n places) : t ≠ [] := by
  cases h with
  | whole hne => exact hne
  | pointed | fraction => simp

theorem AllDigits.isNumeralChar {ds : Text} (h : AllDigits ds) :
    ∀ c ∈ ds, isNumeralChar c = true := fun c hc => by
  simp [BoundSql.isNumeralChar, h c hc]

theorem UnsignedNumeral.isNumeralChar (h : UnsignedNumeral t n places) :
    ∀ c ∈ t, isNumeralChar c = true := by
  cases h with
  | whole _ hds => exact hds.isNumeralChar
  | pointed _ hds hfs =>
    simp only [List.mem_append, List.mem_cons]
    rintro c (hc | rfl | hc)
    · exact hds.isNumeralChar c hc
    · rfl
    · exact hfs.isNumeralChar c hc
  | fraction _ hfs =>
    simp only [List.mem_cons]
    rintro c (rfl | hc)
    · rfl
    · exact hfs.isNumeralChar c hc

/-! ## Reading -/

namespace Decimal

theorem takeFraction_cases (t : Text) :
    (∃ rest, t = '.' :: rest ∧
      takeFraction t = (rest.takeWhile Char.isDigit, rest.dropWhile Char.isDigit)) ∨
      takeFraction t = ([], t) := by
  unfold takeFraction
  split
  next rest => exact .inl ⟨rest, rfl, rfl⟩
  next => exact .inr rfl

/-- An unsigned numeral is its digits up to the point and those behind it, with
nothing left over. -/
theorem unsignedNumeral_iff :
    UnsignedNumeral t n places ↔
      let whole := t.takeWhile Char.isDigit
      let (fraction, rest) := takeFraction (t.dropWhile Char.isDigit)
      ¬(whole = [] ∧ fraction = []) ∧ rest = [] ∧
        n = natOfDigits (whole ++ fraction) ∧ places = fraction.length := by
  have hsplit := List.takeWhile_append_dropWhile (p := Char.isDigit) (l := t)
  have hall : AllDigits (t.takeWhile Char.isDigit) := fun c hc => List.mem_takeWhile_imp hc
  dsimp only
  constructor
  · intro h
    cases h with
    | whole hne hds =>
      rw [List.takeWhile_eq_self_iff.mpr hds, List.dropWhile_eq_nil_iff.mpr hds]
      simp [takeFraction, hne]
    | pointed hne hds hfs =>
      rw [List.takeWhile_append_of_pos hds, List.dropWhile_append_of_pos hds]
      simp [takeFraction, hne, List.takeWhile_eq_self_iff.mpr hfs,
        List.dropWhile_eq_nil_iff.mpr hfs]
    | fraction hne hfs =>
      simp [takeFraction, hne, List.takeWhile_eq_self_iff.mpr hfs,
        List.dropWhile_eq_nil_iff.mpr hfs]
  · generalize t.takeWhile Char.isDigit = whole at *
    generalize t.dropWhile Char.isDigit = behind at *
    subst hsplit
    rcases takeFraction_cases behind with ⟨fs, rfl, hfraction⟩ | hfraction <;> rw [hfraction]
    · rintro ⟨hne, hrest, rfl, rfl⟩
      have hfs : AllDigits fs := List.dropWhile_eq_nil_iff.mp hrest
      dsimp only at hne ⊢
      rw [List.takeWhile_eq_self_iff.mpr hfs] at hne ⊢
      by_cases hwhole : whole = []
      · subst hwhole
        exact .fraction (fun hnil => hne ⟨rfl, hnil⟩) hfs
      · exact .pointed hwhole hall hfs
    · rintro ⟨hne, rfl, rfl, rfl⟩
      rw [List.append_nil]
      exact .whole (fun hnil => hne ⟨hnil, rfl⟩) hall

/-- A text without an exponent asks for none, or holds something else. -/
theorem exponentOf?_eq_some_iff (h : 'e' ∉ t ∧ 'E' ∉ t) {e : Int} :
    exponentOf? t = some e ↔ t = [] ∧ e = 0 := by
  cases t with
  | nil => simp [exponentOf?, eq_comm]
  | cons c rest =>
    have hc : c ≠ 'e' ∧ c ≠ 'E' :=
      ⟨fun heq => h.1 (by simp [heq]), fun heq => h.2 (by simp [heq])⟩
    simp [exponentOf?, hc]

theorem takeSign_suffix (t : Text) : (takeSign t).2 <:+ t := by
  unfold takeSign
  split
  next => exact List.suffix_cons _ _
  next => exact List.suffix_cons _ _
  next => exact List.suffix_rfl

theorem takeFraction_suffix (t : Text) : (takeFraction t).2 <:+ t := by
  rcases takeFraction_cases t with ⟨rest, rfl, h⟩ | h
  · rw [h]
    exact (List.dropWhile_suffix _).trans (List.suffix_cons _ _)
  · rw [h]

/-- Digits and points are no sign. -/
theorem takeSign_of_isNumeralChar (h : ∀ c ∈ t, isNumeralChar c = true) :
    takeSign t = (false, t) := by
  unfold takeSign
  split
  next => exact absurd (h '-' List.mem_cons_self) (by decide)
  next => exact absurd (h '+' List.mem_cons_self) (by decide)
  next => rfl

theorem numeral_iff :
    Numeral t negative n places ↔
      negative = (takeSign t).1 ∧ UnsignedNumeral (takeSign t).2 n places := by
  constructor
  · intro h
    cases h with
    | unsigned h =>
      rw [takeSign_of_isNumeralChar h.isNumeralChar]
      exact ⟨rfl, h⟩
    | plus h | minus h => exact ⟨rfl, h⟩
  · rintro ⟨rfl, h⟩
    unfold takeSign at h ⊢
    split at h
    next => exact .minus h
    next => exact .plus h
    next => exact .unsigned h

/-- **What is read.** Of the texts without an exponent, the numerals are read, and
as what they stand for. -/
theorem ofText?_eq_some_iff (h : 'e' ∉ t ∧ 'E' ∉ t) {d : Decimal} :
    ofText? t = some d ↔
      ∃ negative n places, Numeral t negative n places ∧ d = ⟨negative, n, -(places : Int)⟩ := by
  obtain ⟨rest, hrest⟩ : ∃ rest,
      (takeFraction ((takeSign t).2.dropWhile Char.isDigit)).2 = rest := ⟨_, rfl⟩
  have hsuffix : rest <:+ t :=
    hrest ▸ (takeFraction_suffix _).trans ((List.dropWhile_suffix _).trans (takeSign_suffix t))
  have hexponent : ∀ {e : Int}, exponentOf? rest = some e ↔ rest = [] ∧ e = 0 :=
    exponentOf?_eq_some_iff ⟨fun he => h.1 (hsuffix.mem he), fun he => h.2 (hsuffix.mem he)⟩
  simp only [numeral_iff, unsignedNumeral_iff, hrest]
  unfold ofText?
  dsimp only
  rw [hrest]
  simp only [Bool.and_eq_true, List.isEmpty_iff, Option.ite_none_left_eq_some,
    Option.map_eq_some_iff, hexponent]
  constructor
  · rintro ⟨hne, e, ⟨hnil, rfl⟩, rfl⟩
    exact ⟨_, _, _, ⟨rfl, hne, hnil, rfl, rfl⟩, by simp⟩
  · rintro ⟨_, _, _, ⟨rfl, hne, hnil, rfl, rfl⟩, rfl⟩
    exact ⟨hne, 0, ⟨hnil, rfl⟩, by simp⟩

end Decimal

/-! ## The characters of a numeral -/

/-- Signs, digits and points. -/
def isNumericChar (c : Char) : Bool := c == '-' || c == '+' || isNumeralChar c

theorem isDigit_or_point {c : Char} (h : isNumeralChar c = true) : c.isDigit = true ∨ c = '.' := by
  simpa [isNumeralChar] using h

theorem utf8Size_of_isNumericChar {c : Char} (h : isNumericChar c = true) : c.utf8Size = 1 := by
  simp only [isNumericChar, Bool.or_eq_true, beq_iff_eq] at h
  rcases h with (rfl | rfl) | h
  · rfl
  · rfl
  · rcases isDigit_or_point h with h | rfl
    · simp only [Char.isDigit, Bool.and_eq_true, decide_eq_true_eq] at h
      exact Char.utf8Size_eq_one_iff.mpr (UInt32.le_trans h.2 (by decide))
    · rfl

theorem toLower_of_isNumeralChar {c : Char} (h : isNumeralChar c = true) : c.toLower = c := by
  rcases isDigit_or_point h with h | rfl
  · simp only [Char.isDigit, Bool.and_eq_true, decide_eq_true_eq] at h
    refine dif_neg fun hupper => ?_
    exact absurd (UInt32.le_trans hupper.1 h.2) (by decide)
  · rfl

/-- There is no exponent among them. -/
theorem no_exponent (h : ∀ c ∈ t, isNumericChar c = true) : 'e' ∉ t ∧ 'E' ∉ t :=
  ⟨fun he => absurd (h _ he) (by decide), fun he => absurd (h _ he) (by decide)⟩

/-- What can stand at the start of a numeral, and what can stand behind it. -/
theorem Numeral.shape (h : Numeral t negative n places) :
    ∃ c rest, t = c :: rest ∧ isNumericChar c = true ∧ ∀ a ∈ rest, isNumeralChar a = true := by
  cases h with
  | unsigned h =>
    obtain ⟨c, rest, rfl⟩ := List.exists_cons_of_ne_nil h.ne_nil
    obtain ⟨hc, hrest⟩ := List.forall_mem_cons.mp h.isNumeralChar
    exact ⟨c, rest, rfl, by rw [isNumericChar, hc, Bool.or_true], hrest⟩
  | plus h | minus h => exact ⟨_, _, rfl, rfl, h.isNumeralChar⟩

theorem Numeral.isNumericChar (h : Numeral t negative n places) :
    ∀ c ∈ t, isNumericChar c = true := by
  obtain ⟨c, rest, rfl, hc, hrest⟩ := h.shape
  refine List.forall_mem_cons.mpr ⟨hc, fun a ha => ?_⟩
  rw [BoundSql.isNumericChar, hrest a ha, Bool.or_true]

/-- A numeral is read as the quotient it stands for, since it is none of the names
that are read as numbers, too. -/
theorem Binary64.ofText?_of_numeral (h : Numeral t negative n places) :
    ofText? t = some (ofRatio negative n (pow10 places)) := by
  have hread := (Decimal.ofText?_eq_some_iff (no_exponent h.isNumericChar)).mpr ⟨_, _, _, h, rfl⟩
  have hchars := (Decimal.numeral_iff.mp h).2.isNumeralChar
  have hlower : Text.lower (Decimal.takeSign t).2 = (Decimal.takeSign t).2 :=
    (List.map_congr_left fun c hc => toLower_of_isNumeralChar (hchars c hc)).trans (List.map_id' _)
  have hword : ∀ (c : Char) (rest : Text), isNumeralChar c = false →
      (Decimal.takeSign t).2 ≠ c :: rest := by
    intro c rest hc heq
    rw [heq] at hchars
    exact Bool.noConfusion (hc.symm.trans (hchars c List.mem_cons_self))
  rw [ofText?, read?]
  dsimp only
  rw [hlower, if_neg, if_neg, hread]
  · exact congrArg some (Decimal.toBinary_eq negative n places)
  · exact hword _ _ (by decide)
  · rintro (heq | heq)
    · exact hword _ _ (by decide) heq
    · exact hword _ _ (by decide) heq

/-! ## The region -/

theorem numeralRegion_cons (c : Char) (rest : Text) :
    numeralRegion (c :: rest) =
      if isNumericChar c then c :: rest.takeWhile isNumeralChar else [] := rfl

theorem isNumericChar_of_mem_region {c : Char} (h : c ∈ numeralRegion t) :
    isNumericChar c = true := by
  cases t with
  | nil => cases h
  | cons a rest =>
    rw [numeralRegion_cons] at h
    split at h
    next ha =>
      rcases List.mem_cons.mp h with rfl | h
      · exact ha
      · rw [isNumericChar, List.mem_takeWhile_imp h, Bool.or_true]
    next => cases h

theorem numeralRegion_begins (t : Text) : numeralRegion t <+: t := by
  cases t with
  | nil => exact List.nil_prefix
  | cons a rest =>
    rw [numeralRegion_cons]
    split
    next => exact (List.prefix_cons_inj a).mpr (List.takeWhile_prefix _)
    next => exact List.nil_prefix

/-- **No numeral at the start of a text reaches beyond the region.** -/
theorem Numeral.in_region {q : Text} (h : Numeral q negative n places) (hq : q <+: t) :
    q <+: numeralRegion t := by
  obtain ⟨c, rest, rfl, hc, hrest⟩ := h.shape
  obtain ⟨tail, rfl⟩ := hq
  rw [List.cons_append, numeralRegion_cons, if_pos hc, List.takeWhile_append_of_pos hrest]
  exact List.prefix_append (c :: rest) _

/-- In the region, a place is as many bytes as characters from the start. -/
theorem byteSize_of_isNumericChar (h : ∀ c ∈ t, isNumericChar c = true) :
    t.byteSize = t.length := by
  induction t with
  | nil => rfl
  | cons c t ih =>
    obtain ⟨hc, ht⟩ := List.forall_mem_cons.mp h
    rw [Text.byteSize, utf8Size_of_isNumericChar hc, ih ht, List.length_cons, Nat.add_comm]

/-- **The text can be cut at every place in the region.** -/
theorem slice?_of_le_region (h : n ≤ (numeralRegion t).byteSize) :
    Text.slice? n t = some ((numeralRegion t).take n) := by
  rw [Text.slice?_eq_some_iff]
  refine ⟨(List.take_prefix n _).trans (numeralRegion_begins t), ?_⟩
  rw [byteSize_of_isNumericChar fun c hc => isNumericChar_of_mem_region (List.mem_of_mem_take hc)]
  rw [byteSize_of_isNumericChar fun c hc => isNumericChar_of_mem_region hc] at h
  exact List.length_take_of_le h

/-! ## The longest numeral -/

/-- The longest numeral at the start of a text, and what it stands for. -/
structure LongestNumeral (t p : Text) (negative : Bool) (n places : Nat) : Prop where
  begins : p <+: t
  numeral : Numeral p negative n places
  longest : ∀ q s m k, q <+: t → Numeral q s m k → q.length ≤ p.length

/-- A search backwards finds the last that has a result. -/
theorem findSome?_reverse_range {α : Type} {f : Nat → Option α} {n : Nat} {a : α}
    (h : (List.range n).reverse.findSome? f = some a) :
    ∃ k < n, f k = some a ∧ ∀ j, k < j → j < n → f j = none := by
  induction n with
  | zero => cases h
  | succ n ih =>
    rw [List.range_succ, List.reverse_append, List.reverse_singleton, List.singleton_append,
      List.findSome?_cons] at h
    split at h
    next b hb => exact ⟨n, Nat.lt_succ_self n, h ▸ hb, fun j hj hlt => by omega⟩
    next hnone =>
      obtain ⟨k, hk, hfk, hlast⟩ := ih h
      refine ⟨k, Nat.lt_succ_of_lt hk, hfk, fun j hj hlt => ?_⟩
      rcases Nat.lt_succ_iff_lt_or_eq.mp hlt with hlt | rfl
      · exact hlast j hj hlt
      · exact hnone

/-- What is read up to a place in the region is a numeral. -/
theorem numeral_of_read {d : Decimal} (hn : n ≤ (numeralRegion t).byteSize)
    (h : (Text.slice? n t).bind Decimal.ofText? = some d) :
    ∃ p negative m places, p <+: t ∧ p.length = n ∧ Numeral p negative m places ∧
      d = ⟨negative, m, -(places : Int)⟩ := by
  have hchars : ∀ c ∈ (numeralRegion t).take n, isNumericChar c = true := fun c hc =>
    isNumericChar_of_mem_region (List.mem_of_mem_take hc)
  have hslice := slice?_of_le_region hn
  obtain ⟨hbegins, hsize⟩ := Text.slice?_eq_some_iff.mp hslice
  rw [hslice, Option.bind_some, Decimal.ofText?_eq_some_iff (no_exponent hchars)] at h
  obtain ⟨negative, m, places, hnumeral, hd⟩ := h
  exact ⟨_, negative, m, places, hbegins, (byteSize_of_isNumericChar hchars).symm.trans hsize,
    hnumeral, hd⟩

/-- A numeral at the start of a text is read, at a place in the region. -/
theorem Numeral.read {q : Text} (h : Numeral q negative n places) (hq : q <+: t) :
    q.length ≤ (numeralRegion t).byteSize ∧
      (Text.slice? q.length t).bind Decimal.ofText? = some ⟨negative, n, -(places : Int)⟩ := by
  have hsize := byteSize_of_isNumericChar h.isNumericChar
  constructor
  · rw [byteSize_of_isNumericChar fun c hc => isNumericChar_of_mem_region hc]
    exact (h.in_region hq).length_le
  · rw [Text.slice?_eq_some_iff.mpr ⟨hq, hsize⟩, Option.bind_some,
      Decimal.ofText?_eq_some_iff (no_exponent h.isNumericChar)]
    exact ⟨negative, n, places, h, rfl⟩

/-- The search finds the longest numeral, or nothing where there is none. -/
theorem leadingDecimal?_cases (t : Text) :
    (∃ p negative n places, LongestNumeral t p negative n places ∧
      leadingDecimal? t = some ⟨negative, n, -(places : Int)⟩) ∨
    (∀ p negative n places, p <+: t → ¬Numeral p negative n places) ∧ leadingDecimal? t = none := by
  cases h : leadingDecimal? t with
  | none =>
    refine .inr ⟨fun p negative n places hp hnumeral => ?_, rfl⟩
    obtain ⟨hle, hread⟩ := hnumeral.read hp
    rw [leadingDecimal?, List.findSome?_eq_none_iff] at h
    have hmem : p.length ∈ (List.range ((numeralRegion t).byteSize + 1)).reverse := by
      rw [List.mem_reverse, List.mem_range]
      exact Nat.lt_succ_of_le hle
    rw [h _ hmem] at hread
    cases hread
  | some d =>
    obtain ⟨k, hk, hread, hlast⟩ := findSome?_reverse_range h
    obtain ⟨p, negative, n, places, hp, rfl, hnumeral, rfl⟩ :=
      numeral_of_read (Nat.le_of_lt_succ hk) hread
    refine .inl ⟨p, negative, n, places, ⟨hp, hnumeral, fun q s m j hq hlonger => ?_⟩, rfl⟩
    -- a longer one would have been tried before
    obtain ⟨hle, hqread⟩ := hlonger.read hq
    refine Nat.le_of_not_lt fun hlt => ?_
    rw [hlast _ hlt (Nat.lt_succ_of_le hle)] at hqread
    cases hqread

/-- A text that is a numeral is read in full. -/
theorem Numeral.leadingDecimal? (h : Numeral t negative n places) :
    leadingDecimal? t = some ⟨negative, n, -(places : Int)⟩ := by
  rcases leadingDecimal?_cases t with ⟨p, s, m, k, hp, hread⟩ | ⟨hnone, -⟩
  · obtain rfl : p = t := hp.begins.eq_of_length_le (hp.longest _ _ _ _ List.prefix_rfl h)
    have hchars := no_exponent h.isNumericChar
    rw [hread, ← (Decimal.ofText?_eq_some_iff hchars).mpr ⟨_, _, _, hp.numeral, rfl⟩]
    exact (Decimal.ofText?_eq_some_iff hchars).mpr ⟨_, _, _, h, rfl⟩
  · exact absurd h (hnone _ _ _ _ List.prefix_rfl)

/-- **The number a text starts with.** Behind the blanks at its start, a text is
read by the longest numeral without an exponent that it starts with: as what that
numeral alone is read as, which is the 64-bit number nearest to it. A text that
starts with none is read as zero. All the places at which the search cuts the
text lie between two characters. -/
theorem leadingNumber_reads (t : Text) :
    let u := Text.trimStart t
    (∀ n ≤ (numeralRegion u).byteSize, u.isBoundary n = true) ∧
    ((∃ p negative n places, LongestNumeral u p negative n places ∧
        Binary64.ofText? p = some (leadingNumber t) ∧
        (leadingNumber t).IsNearest negative n (pow10 places)) ∨
      (∀ p negative n places, p <+: u → ¬Numeral p negative n places) ∧
        leadingNumber t = .zero false) := by
  intro u
  constructor
  · intro n hn
    rw [Text.isBoundary, slice?_of_le_region hn, Option.isSome_some]
  · rcases leadingDecimal?_cases u with ⟨p, negative, n, places, hp, hread⟩ | ⟨hnone, hread⟩
    · have hnumber : leadingNumber t = .ofRatio negative n (pow10 places) := by
        rw [leadingNumber, hread]
        exact Decimal.toBinary_eq negative n places
      rw [hnumber]
      exact .inl ⟨p, negative, n, places, hp, Binary64.ofText?_of_numeral hp.numeral,
        Binary64.isNearest_ofRatio negative (Nat.pow_pos (by decide))⟩
    · refine .inr ⟨hnone, ?_⟩
      rw [leadingNumber, hread]

/-- A numeral behind two kinds of blanks, with a second point behind it that is
tried first, and a lone sign with a point. -/
theorem leadingNumber_reads_sample :
    let t : Text := "\u00a0\t-12.5.7 kg".toList
    let u : Text := "-12.5.7 kg".toList
    let v : Text := "-.".toList
    (Text.trimStart t = u ∧ 7 ≤ (numeralRegion u).byteSize ∧ u.isBoundary 7 = true) ∧
    ((∃ p negative n places, LongestNumeral u p negative n places ∧
        Binary64.ofText? p = some (leadingNumber t) ∧
        (leadingNumber t).IsNearest negative n (pow10 places)) ∧
      Binary64.ofText? "-12.5".toList = some (leadingNumber t)) ∧
    (∀ p negative n places, p <+: v → ¬Numeral p negative n places) ∧
      leadingNumber v = .zero false := by
  intro t u v
  have htrim : Text.trimStart t = u := by decide +kernel
  have hsize : 7 ≤ (numeralRegion u).byteSize := by decide
  have hnumeral : Numeral "-12.5".toList true 125 1 :=
    .minus (@UnsignedNumeral.pointed ['1', '2'] ['5'] (by decide) (by decide) (by decide))
  obtain ⟨hcuts, hread⟩ := leadingNumber_reads t
  obtain ⟨-, hsign⟩ := leadingNumber_reads v
  rw [htrim] at hcuts hread
  rw [show Text.trimStart v = v by decide +kernel] at hsign
  refine ⟨⟨htrim, hsize, hcuts 7 hsize⟩, ⟨hread.resolve_right fun h => ?_, by decide +kernel⟩,
    hsign.resolve_left ?_⟩
  · exact h.1 _ _ _ _ (by decide) hnumeral
  · rintro ⟨p, negative, n, places, hp, hof, -⟩
    have hnone : ∀ q ∈ v.inits, Binary64.ofText? q = none := by decide +kernel
    rw [hnone p ((List.mem_inits p _).mpr hp.begins)] at hof
    cases hof

end BoundSql
