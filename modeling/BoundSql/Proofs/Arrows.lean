/-
Texts cut at arrows.

A text is cut at its arrows from left to right. Put together again the parts
are the text (`joined_splitArrows`), and none of them has an arrow in it
(`arrowless_of_mem_splitArrows`). There is no other way to cut a text into such
parts (`splitArrows_joined`): an arrow that is none of the joints would lie
across one, and no arrow can overlap another, since its two characters differ.
So parts may well begin or end with either of them.
-/
import BoundSql.Proofs.TrimFacts
import BoundSql.Selector

namespace BoundSql

/-! ## Texts without an arrow -/

namespace Text

/-- A text without an arrow. -/
def Arrowless (t : Text) : Prop := ¬ "->".toList <:+: t

instance (t : Text) : Decidable (Arrowless t) := decidable_of_iff (¬ occurs "->" t) (not_congr occurs_iff)

theorem arrow_prefix_iff {t : Text} : "->".toList <+: t ↔ ∃ rest, t = '-' :: '>' :: rest :=
  exists_congr fun _ => eq_comm

theorem arrowless_cons {c : Char} {t : Text} :
    Arrowless (c :: t) ↔ ¬ "->".toList <+: c :: t ∧ Arrowless t := by
  rw [Arrowless, List.infix_cons_iff, not_or]
  rfl

theorem arrowless_of_not_mem {t : Text} (h : '-' ∉ t) : Arrowless t :=
  fun harrow => h (harrow.subset (by simp))

theorem arrowless_of_blank {t : Text} (h : blank t = true) : Arrowless t := by
  refine arrowless_of_not_mem fun hm => ?_
  have hdash := List.all_eq_true.mp h '-' hm
  exact absurd hdash (by decide)

theorem Arrowless.of_infix {t u : Text} (h : Arrowless t) (hu : u <:+: t) : Arrowless u :=
  fun harrow => h (harrow.trans hu)

/-- Two texts without an arrow have none together, unless one lies across the
joint. -/
theorem Arrowless.append {a b : Text} (ha : Arrowless a) (hb : Arrowless b)
    (hjoint : a.getLast? ≠ some '-' ∨ b.head? ≠ some '>') : Arrowless (a ++ b) := by
  induction a with
  | nil => exact hb
  | cons c a ih =>
    rw [arrowless_cons] at ha
    rw [List.cons_append, arrowless_cons]
    cases a with
    | nil =>
      refine ⟨fun harrow => ?_, hb⟩
      obtain ⟨rest, hrest⟩ := arrow_prefix_iff.mp harrow
      rw [List.nil_append, List.cons.injEq] at hrest
      obtain ⟨rfl, rfl⟩ := hrest
      rcases hjoint with h | h <;> exact h rfl
    | cons d a =>
      refine ⟨fun harrow => ?_, ih ha.2 (by rwa [List.getLast?_cons_cons] at hjoint)⟩
      obtain ⟨rest, hrest⟩ := arrow_prefix_iff.mp harrow
      simp only [List.cons_append, List.cons.injEq] at hrest
      obtain ⟨rfl, rfl, -⟩ := hrest
      exact ha.1 (arrow_prefix_iff.mpr ⟨a, rfl⟩)

theorem arrowless_trim_iff {t : Text} : Arrowless (trim t) ↔ Arrowless t := by
  obtain ⟨l, r, hl, hr, ht⟩ := trim_spec t
  refine ⟨fun h => ?_, fun h => h.of_infix (infix_trim t)⟩
  have hlast : l.getLast? ≠ some '-' := fun hdash =>
    absurd (List.all_eq_true.mp hl '-' (List.mem_of_getLast? hdash)) (by decide)
  have hhead : r.head? ≠ some '>' := fun htip =>
    absurd (List.all_eq_true.mp hr '>' (List.mem_of_head? htip)) (by decide)
  rw [ht]
  exact ((arrowless_of_blank hl).append h (.inl hlast)).append (arrowless_of_blank hr) (.inr hhead)

theorem joined_cons_of_ne_nil (s t : Text) {ts : List Text} (h : ts ≠ []) :
    joined s (t :: ts) = t ++ s ++ joined s ts := by
  obtain ⟨u, rest, rfl⟩ := List.exists_cons_of_ne_nil h
  rfl

theorem infix_joined (s : Text) {ts : List Text} {t : Text} (h : t ∈ ts) : t <:+: joined s ts := by
  induction ts with
  | nil => simp at h
  | cons u ts ih =>
    rcases List.mem_cons.mp h with rfl | h
    · rw [joined_cons]
      exact (List.prefix_append _ _).isInfix
    · rw [joined_cons_of_ne_nil s u (List.ne_nil_of_mem h)]
      exact (ih h).trans (List.suffix_append _ _).isInfix

/-- Texts without an arrow have none together, if what stands between them keeps
their ends apart. -/
theorem Arrowless.joined {s : Text} (hs : Arrowless s) (hne : s ≠ []) (hhead : s.head? ≠ some '>')
    (hlast : s.getLast? ≠ some '-') {ts : List Text} (h : ∀ t ∈ ts, Arrowless t) :
    Arrowless (Text.joined s ts) := by
  induction ts with
  | nil => exact arrowless_of_blank rfl
  | cons t ts ih =>
    obtain rfl | hts := eq_or_ne ts []
    · exact h t (by simp)
    · rw [joined_cons_of_ne_nil s t hts]
      have hfirst := (h t (by simp)).append hs (.inr hhead)
      refine hfirst.append (ih fun u hu => h u (by simp [hu])) (.inl ?_)
      rwa [List.getLast?_append_of_ne_nil t hne]

end Text

open Text (Arrowless)

/-! ## The parts between the arrows -/

namespace Selector

theorem splitArrows_cons {c : Char} {rest : Text} (h : ¬ "->".toList <+: c :: rest) {part : Text}
    {parts : List Text} (hrest : splitArrows rest = part :: parts) :
    splitArrows (c :: rest) = (c :: part) :: parts := by
  rw [splitArrows, hrest]
  rintro u rfl rfl
  exact h (Text.arrow_prefix_iff.mpr ⟨u, rfl⟩)

theorem splitArrows_ne_nil (t : Text) : splitArrows t ≠ [] := by
  fun_cases splitArrows t <;> simp

/-- Nothing is lost in cutting. -/
theorem joined_splitArrows (t : Text) : Text.joined "->" (splitArrows t) = t := by
  fun_induction splitArrows t with
  | case1 => rfl
  | case2 rest ih =>
    rw [Text.joined_cons_of_ne_nil _ _ (splitArrows_ne_nil rest), ih]
    rfl
  | case3 c rest _ hrest => exact absurd hrest (splitArrows_ne_nil rest)
  | case4 c rest _ part parts hrest ih =>
    rw [hrest, Text.joined_cons] at ih
    rw [Text.joined_cons, List.cons_append, ih]

theorem arrowless_of_mem_splitArrows {t part : Text} (h : part ∈ splitArrows t) : Arrowless part := by
  fun_induction splitArrows t generalizing part with
  | case1 =>
    rw [List.mem_singleton.mp h]
    decide
  | case2 rest ih =>
    rcases List.mem_cons.mp h with rfl | h
    · decide
    · exact ih h
  | case3 c rest _ hrest => exact absurd hrest (splitArrows_ne_nil rest)
  | case4 c rest hno first others hrest ih =>
    rw [hrest] at ih
    rcases List.mem_cons.mp h with rfl | h
    · refine Text.arrowless_cons.mpr ⟨fun harrow => ?_, ih List.mem_cons_self⟩
      -- an arrow at the start of the part is one at the start of the text
      obtain ⟨tail, htail⟩ := Text.arrow_prefix_iff.mp harrow
      obtain ⟨rfl, rfl⟩ := List.cons.inj htail
      have hjoined := joined_splitArrows rest
      rw [hrest, Text.joined_cons] at hjoined
      exact hno _ rfl hjoined.symm
    · exact ih (List.mem_cons_of_mem _ h)

theorem splitArrows_of_arrowless {t : Text} (h : Arrowless t) : splitArrows t = [t] := by
  induction t with
  | nil => rfl
  | cons c t ih =>
    obtain ⟨hno, ht⟩ := Text.arrowless_cons.mp h
    exact splitArrows_cons hno (ih ht)

/-- The first arrow behind a text without one is where the text is cut, even if
the text ends with half an arrow. -/
theorem splitArrows_append {t : Text} (h : Arrowless t) (rest : Text) :
    splitArrows (t ++ "->" ++ rest) = t :: splitArrows rest := by
  induction t with
  | nil => rfl
  | cons c t ih =>
    obtain ⟨hno, ht⟩ := Text.arrowless_cons.mp h
    refine splitArrows_cons (fun harrow => ?_) (ih ht)
    obtain ⟨tail, htail⟩ := Text.arrow_prefix_iff.mp harrow
    cases t with
    | nil => simp at htail
    | cons d t =>
      simp only [List.cons.injEq] at htail
      obtain ⟨rfl, rfl, -⟩ := htail
      exact hno (Text.arrow_prefix_iff.mpr ⟨t, rfl⟩)

/-- There is one way to cut a text into parts without an arrow. -/
theorem splitArrows_joined {parts : List Text} (hne : parts ≠ [])
    (h : ∀ part ∈ parts, Arrowless part) : splitArrows (Text.joined "->" parts) = parts := by
  induction parts with
  | nil => exact absurd rfl hne
  | cons part parts ih =>
    have hpart := h part List.mem_cons_self
    obtain rfl | hparts := eq_or_ne parts []
    · exact splitArrows_of_arrowless hpart
    · rw [Text.joined_cons_of_ne_nil _ _ hparts, splitArrows_append hpart,
        ih hparts fun u hu => h u (List.mem_cons_of_mem part hu)]

example : splitArrows "a-->>b->c" = ["a-".toList, ">b".toList, "c".toList] := rfl

end Selector

end BoundSql
