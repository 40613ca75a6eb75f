/-
Cutting blanks off the ends of a text.

`Text.trim t` is the middle of `t`: `trim_spec` finds the blanks before and
behind it, and `trim_eq` says there is no other way to cut, so what happens to
a trimmed text can be read off any cut of it into blanks, a middle that has no
blanks at its ends (`Snug`), and blanks. So a text made of atoms is trimmed atom
by atom (`trim_flatMap`).
-/
import BoundSql.Text.Basic
import Mathlib.Data.List.DropRight

namespace BoundSql.Text

/-- Text without blanks at its ends. -/
structure Snug (t : Text) : Prop where
  head : ∀ c ∈ t.head?, isBlank c = false
  last : ∀ c ∈ t.getLast?, isBlank c = false

theorem Snug.nil : Snug [] := ⟨by simp, by simp⟩

theorem Snug.of_forall {t : Text} (h : ∀ c ∈ t, isBlank c = false) : Snug t where
  head c hc := h c (List.mem_of_head? hc)
  last c hc := h c (List.mem_of_getLast? hc)

theorem Snug.of_all {t : Text} (h : (t.all fun c => !isBlank c) = true) : Snug t :=
  .of_forall fun c hc => by simpa using List.all_eq_true.mp h c hc

theorem blank_append {a b : Text} : blank (a ++ b) = (blank a && blank b) := by
  simp [blank]

/-! ## The end -/

theorem trimEnd_of_blank {r : Text} (h : blank r = true) : trimEnd r = [] := by
  induction r with
  | nil => rfl
  | cons c r ih =>
    simp only [blank, List.all_cons, Bool.and_eq_true] at h
    simp [trimEnd, ih h.2, h.1]

theorem trimEnd_append {t r : Text} (h : blank r = true) : trimEnd (t ++ r) = trimEnd t := by
  induction t with
  | nil => exact trimEnd_of_blank h
  | cons c t ih => simp only [List.cons_append, trimEnd, ih]

theorem trimEnd_eq_self {t : Text} (h : ∀ c ∈ t.getLast?, isBlank c = false) : trimEnd t = t := by
  induction t with
  | nil => rfl
  | cons c t ih =>
    cases t with
    | nil => simp [trimEnd, h c (by simp)]
    | cons d t =>
      have hd := ih fun e he => h e (by rw [List.getLast?_cons_cons]; exact he)
      rw [trimEnd, hd]

theorem trimEnd_spec (t : Text) : ∃ r, blank r = true ∧ t = trimEnd t ++ r := by
  induction t with
  | nil => exact ⟨[], rfl, rfl⟩
  | cons c t ih =>
    obtain ⟨r, hr, ht⟩ := ih
    cases hk : trimEnd t with
    | nil =>
      have htr : t = r := by simpa [hk] using ht
      by_cases hc : isBlank c = true
      · exact ⟨c :: t, by simpa [blank, hc, htr] using hr, by simp [trimEnd, hk, hc]⟩
      · exact ⟨t, htr ▸ hr, by simp [trimEnd, hk, hc]⟩
    | cons d k =>
      refine ⟨r, hr, ?_⟩
      simp only [trimEnd, hk, List.cons_append]
      rw [← List.cons_append, ← hk, ← ht]

theorem last_trimEnd (t : Text) : ∀ c ∈ (trimEnd t).getLast?, isBlank c = false := by
  induction t with
  | nil => simp [trimEnd]
  | cons c t ih =>
    intro e he
    cases hk : trimEnd t with
    | nil =>
      by_cases hc : isBlank c = true
      · simp [trimEnd, hk, hc] at he
      · simp only [trimEnd, hk, hc, Bool.false_eq_true, if_false, List.getLast?_singleton,
          Option.mem_def, Option.some.injEq] at he
        subst he
        simpa using hc
    | cons d k =>
      simp only [trimEnd, hk, List.getLast?_cons_cons] at he
      exact ih e (hk ▸ he)

/-! ## Both ends -/

theorem head_trimStart (t : Text) : ∀ c ∈ (trimStart t).head?, isBlank c = false := by
  intro c hc
  have h := List.head?_dropWhile_not isBlank t
  rw [← trimStart, hc] at h
  exact h

theorem trimStart_spec (t : Text) : ∃ l, blank l = true ∧ t = l ++ trimStart t :=
  ⟨t.takeWhile isBlank, by simp [blank, List.all_takeWhile], (List.takeWhile_append_dropWhile).symm⟩

/-- A trimmed text has no blanks at its ends. -/
theorem snug_trim (t : Text) : Snug (trim t) where
  head c hc := by
    obtain ⟨r, -, hr⟩ := trimEnd_spec (trimStart t)
    refine head_trimStart t c ?_
    rw [hr, List.head?_append, Option.mem_def]
    rw [Option.mem_def] at hc
    simp [show trimEnd (trimStart t) = trim t from rfl, hc]
  last := last_trimEnd _

/-- A text is its middle with blanks before and behind it. -/
theorem trim_spec (t : Text) :
    ∃ l r, blank l = true ∧ blank r = true ∧ t = l ++ trim t ++ r := by
  obtain ⟨l, hl, ht⟩ := trimStart_spec t
  obtain ⟨r, hr, hs⟩ := trimEnd_spec (trimStart t)
  exact ⟨l, r, hl, hr, by rw [List.append_assoc, trim, ← hs, ← ht]⟩

theorem infix_trim (t : Text) : trim t <:+: t := by
  obtain ⟨l, r, -, -, ht⟩ := trim_spec t
  exact ⟨l, r, ht.symm⟩

/-- Any cut of a text into blanks, a snug middle and blanks gives that middle. -/
theorem trim_eq {l m r : Text} (hl : blank l = true) (hr : blank r = true) (hm : Snug m) :
    trim (l ++ m ++ r) = m := by
  cases hm' : m with
  | nil =>
    have hb : blank (l ++ r) = true := by simp [blank_append, hl, hr]
    obtain ⟨a, -, ha⟩ := trimStart_spec (l ++ r)
    rw [ha, blank_append, Bool.and_eq_true] at hb
    rw [List.append_nil, trim, trimEnd_of_blank hb.2]
  | cons c m =>
    have hc : isBlank c = false := hm.head c (by simp [hm'])
    have hstart : trimStart (l ++ (c :: m) ++ r) = (c :: m) ++ r := by
      rw [trimStart, List.append_assoc, List.dropWhile_append_of_pos (by simpa [blank] using hl)]
      simp [hc]
    rw [trim, hstart, trimEnd_append hr, trimEnd_eq_self (hm' ▸ hm.last)]

theorem trim_eq_self {t : Text} (h : Snug t) : trim t = t := by
  simpa using trim_eq (l := []) (r := []) rfl rfl h

theorem trim_eq_nil {t : Text} : trim t = [] ↔ blank t = true := by
  constructor
  · intro h
    obtain ⟨l, r, hl, hr, ht⟩ := trim_spec t
    rw [ht, h, List.append_nil, blank_append, hl, hr]; rfl
  · intro h
    simpa using trim_eq (l := t) (m := []) (r := []) h rfl .nil

theorem trim_ne_nil {t : Text} : trim t ≠ [] ↔ blank t = false := by
  rw [ne_eq, trim_eq_nil, Bool.not_eq_true]

theorem trim_trim (t : Text) : trim (trim t) = trim t := trim_eq_self (snug_trim t)

theorem blank_trim (t : Text) : blank (trim t) = blank t := by
  rw [Bool.eq_iff_iff, ← trim_eq_nil, ← trim_eq_nil, trim_trim]

/-! ## Texts with more behind -/

theorem trimEnd_ne_nil {t : Text} (h : blank t = false) : trimEnd t ≠ [] := by
  obtain ⟨r, hr, ht⟩ := trimEnd_spec t
  intro hnil
  rw [ht, hnil, List.nil_append, hr] at h
  cases h

theorem trimEnd_append_of_not_blank (t : Text) {r : Text} (h : blank r = false) :
    trimEnd (t ++ r) = t ++ trimEnd r := by
  induction t with
  | nil => rfl
  | cons c t ih =>
    rw [List.cons_append, trimEnd, ih]
    split
    next hnil => exact absurd (List.append_eq_nil_iff.mp hnil).2 (trimEnd_ne_nil h)
    next => rfl

theorem trim_append_of_blank (t : Text) {r : Text} (h : blank r = true) : trim (t ++ r) = trim t := by
  obtain ⟨l, s, hl, hs, ht⟩ := trim_spec t
  have hsr : blank (s ++ r) = true := by rw [blank_append, hs, h]; rfl
  have hcut := trim_eq hl hsr (snug_trim t)
  rwa [← List.append_assoc, ← ht] at hcut

/-- Between two texts that can be seen nothing is cut off. -/
theorem trim_append_of_not_blank {t r : Text} (ht : blank t = false) (hr : blank r = false) :
    trim (t ++ r) = trimStart t ++ trimEnd r := by
  have hstart : trimStart (t ++ r) = trimStart t ++ r := by
    have hne : t.dropWhile isBlank ≠ [] := fun hnil => by
      rw [List.dropWhile_eq_nil_iff, ← List.all_eq_true, ← blank, ht] at hnil
      cases hnil
    simp [trimStart, List.dropWhile_append, hne]
  rw [trim, hstart, trimEnd_append_of_not_blank _ hr]

/-- What stands behind a text changes nothing about the text, trimmed. -/
theorem trim_append_prefix (t r : Text) : trim t <+: trim (t ++ r) := by
  cases hr : blank r with
  | true => simp [trim_append_of_blank t hr]
  | false =>
    cases ht : blank t with
    | true =>
      rw [trim_eq_nil.mpr ht]
      exact List.nil_prefix
    | false =>
      obtain ⟨s, -, hs⟩ := trimEnd_spec (trimStart t)
      rw [trim_append_of_not_blank ht hr]
      exact List.IsPrefix.trans ⟨s, hs.symm⟩ (List.prefix_append _ _)

/-- It can be seen, unless it is blank. -/
theorem trim_append_eq_iff {t r : Text} : trim t = trim (t ++ r) ↔ blank r = true := by
  refine ⟨fun h => ?_, fun hr => (trim_append_of_blank t hr).symm⟩
  cases hr : blank r with
  | true => rfl
  | false =>
    cases ht : blank t with
    | true =>
      rw [trim_eq_nil.mpr ht, eq_comm, trim_eq_nil, blank_append, hr, Bool.and_false] at h
      cases h
    | false =>
      obtain ⟨s, -, hs⟩ := trimEnd_spec (trimStart t)
      have hlength := congrArg List.length h
      have hstart := congrArg List.length hs
      have hpos := List.length_pos_iff.mpr (trimEnd_ne_nil hr)
      rw [trim_append_of_not_blank ht hr, trim] at hlength
      simp only [List.length_append] at hlength hstart
      omega

/-! ## Texts in parentheses -/

/-- Text in parentheses. -/
def parenthesized (t : Text) : Text := "(" ++ t ++ ")"

theorem parenthesized_ne_nil (t : Text) : parenthesized t ≠ [] := by simp [parenthesized]

theorem snug_parenthesized (t : Text) : Snug (parenthesized t) where
  head c hc := by
    obtain rfl : '(' = c := by simpa [parenthesized] using hc
    decide
  last c hc := by
    obtain rfl : ')' = c := by simpa [parenthesized, List.getLast?_cons] using hc
    decide

/-! ## Texts made of atoms -/

section Atoms

variable {α : Type} {pad : α → Bool} {text : α → Text}

/-- Atoms without those at the two ends that are padding. -/
def trimAtoms (pad : α → Bool) (as : List α) : List α := (as.dropWhile pad).rdropWhile pad

theorem trimAtoms_infix (pad : α → Bool) (as : List α) : trimAtoms pad as <:+: as :=
  (List.rdropWhile_prefix pad _).isInfix.trans (List.dropWhile_suffix pad).isInfix

theorem trimAtoms_map {β : Type} (f : β → α) (bs : List β) :
    trimAtoms pad (bs.map f) = (trimAtoms (pad ∘ f) bs).map f := by
  simp only [trimAtoms, List.rdropWhile, List.dropWhile_map, ← List.map_reverse]

theorem head_trimAtoms (pad : α → Bool) (as : List α) :
    ∀ a ∈ (trimAtoms pad as).head?, pad a = false := by
  intro a ha
  obtain ⟨r, hr⟩ := List.rdropWhile_prefix pad (as.dropWhile pad)
  have hd := List.head?_dropWhile_not pad as
  rw [← hr, List.head?_append, show (List.rdropWhile pad _).head? = some a from ha] at hd
  simpa using hd

theorem last_trimAtoms (pad : α → Bool) (as : List α) :
    ∀ a ∈ (trimAtoms pad as).getLast?, pad a = false := by
  intro a ha
  have hne : trimAtoms pad as ≠ [] := fun h => by simp [h] at ha
  rw [List.getLast?_eq_some_getLast hne, Option.mem_def, Option.some.injEq] at ha
  rw [← ha]
  exact Bool.eq_false_iff.mpr (List.rdropWhile_last_not pad _ hne)

theorem exists_trimAtoms (pad : α → Bool) (as : List α) :
    ∃ l r, (∀ a ∈ l, pad a = true) ∧ (∀ a ∈ r, pad a = true) ∧ as = l ++ trimAtoms pad as ++ r := by
  refine ⟨as.takeWhile pad, (as.dropWhile pad).rtakeWhile pad,
    fun a ha => List.mem_takeWhile_imp ha,
    fun a ha => List.mem_rtakeWhile_imp ha, ?_⟩
  rw [List.append_assoc, trimAtoms, List.rdropWhile_append_rtakeWhile,
    List.takeWhile_append_dropWhile]

theorem blank_flatMap (hpad : ∀ a, pad a = true → blank (text a) = true) {as : List α}
    (h : ∀ a ∈ as, pad a = true) : blank (as.flatMap text) = true := by
  rw [blank, List.all_flatMap, List.all_eq_true]
  exact fun a ha => hpad a (h a ha)

theorem snug_flatMap {as : List α} (hhead : ∀ a ∈ as.head?, text a ≠ [] ∧ Snug (text a))
    (hlast : ∀ a ∈ as.getLast?, text a ≠ [] ∧ Snug (text a)) : Snug (as.flatMap text) := by
  refine ⟨fun c hc => ?_, fun c hc => ?_⟩
  · cases as with
    | nil => simp at hc
    | cons a as =>
      obtain ⟨hne, hsnug⟩ := hhead a rfl
      obtain ⟨d, u, hd⟩ := List.exists_cons_of_ne_nil hne
      refine hsnug.head c ?_
      rw [List.flatMap_cons, hd] at hc
      rw [hd]
      exact hc
  · obtain rfl | ⟨as, a, rfl⟩ := List.eq_nil_or_concat as
    · simp at hc
    · obtain ⟨hne, hsnug⟩ := hlast a (by simp)
      refine hsnug.last c ?_
      rw [List.concat_eq_append, List.flatMap_append, List.flatMap_singleton, List.getLast?_append,
        List.getLast?_eq_some_getLast hne, Option.some_or] at hc
      rwa [List.getLast?_eq_some_getLast hne]

/-- A text made of atoms is trimmed by trimming the atoms, if an atom is either
blank or has no blanks at its ends. -/
theorem trim_flatMap (hpad : ∀ a, pad a = true → blank (text a) = true)
    (hsolid : ∀ a, pad a = false → text a ≠ [] ∧ Snug (text a)) (as : List α) :
    trim (as.flatMap text) = (trimAtoms pad as).flatMap text := by
  obtain ⟨l, r, hl, hr, has⟩ := exists_trimAtoms pad as
  have hsnug : Snug ((trimAtoms pad as).flatMap text) :=
    snug_flatMap (fun a ha => hsolid a (head_trimAtoms pad as a ha))
      fun a ha => hsolid a (last_trimAtoms pad as a ha)
  have htrim := trim_eq (blank_flatMap hpad hl) (blank_flatMap hpad hr) hsnug
  rwa [← List.flatMap_append, ← List.flatMap_append, ← has] at htrim

end Atoms

end BoundSql.Text
