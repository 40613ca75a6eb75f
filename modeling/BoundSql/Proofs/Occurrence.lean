/-
Texts that occur in another text in order, one behind the other and without
overlap.

Blanks cut off the ends of a text take nothing of what occurs in it, as long
as that has no blanks at its own ends (`InOrder.trim`), and texts put together
have in them what their parts have (`Covered.joined`).
-/
import BoundSql.Proofs.TrimFacts

namespace BoundSql.Text

/-- Texts occur in a text in order. -/
def InOrder : List Text → Text → Prop
  | [], _ => True
  | t :: ts, w => ∃ a b, w = a ++ t ++ b ∧ InOrder ts b

namespace InOrder

variable {ts us : List Text} {w : Text}

theorem append_left (h : InOrder ts w) (a : Text) : InOrder ts (a ++ w) := by
  cases ts with
  | nil => trivial
  | cons t ts =>
    obtain ⟨l, r, rfl, hr⟩ := h
    exact ⟨a ++ l, r, by simp, hr⟩

theorem append (h : InOrder ts w) {v : Text} (hv : InOrder us v) : InOrder (ts ++ us) (w ++ v) := by
  induction ts generalizing w with
  | nil => exact hv.append_left w
  | cons t ts ih =>
    obtain ⟨l, r, rfl, hr⟩ := h
    exact ⟨l, r ++ v, by simp, ih hr⟩

theorem append_right (h : InOrder ts w) (b : Text) : InOrder ts (w ++ b) := by
  have hb : InOrder [] b := trivial
  simpa using h.append hb

/-! ## Blanks at the ends -/

/-- What can be looked for in a text whatever blanks surround it. -/
def Solid (t : Text) : Prop := t ≠ [] ∧ Snug t

theorem drop_blank {c : Char} (hc : isBlank c = true) (hts : ∀ t ∈ ts, Solid t)
    (h : InOrder ts (c :: w)) : InOrder ts w := by
  cases ts with
  | nil => trivial
  | cons t ts =>
    obtain ⟨a, b, hw, hb⟩ := h
    cases a with
    | nil =>
      -- what occurs at the very start begins with the blank
      obtain ⟨hne, hsnug⟩ := hts t (by simp)
      obtain ⟨d, u, rfl⟩ := List.exists_cons_of_ne_nil hne
      obtain rfl : c = d := by simpa using congrArg List.head? hw
      rw [hsnug.head c rfl] at hc
      cases hc
    | cons d a =>
      rw [List.cons_append, List.cons_append, List.cons.injEq] at hw
      exact ⟨a, b, hw.2, hb⟩

theorem dropLast_blank {c : Char} (hc : isBlank c = true) (hts : ∀ t ∈ ts, Solid t)
    (h : InOrder ts (w ++ [c])) : InOrder ts w := by
  induction ts generalizing w with
  | nil => trivial
  | cons t ts ih =>
    obtain ⟨a, b, hw, hb⟩ := h
    obtain rfl | ⟨b, d, rfl⟩ := List.eq_nil_or_concat b
    · -- what occurs at the very end ends with the blank
      obtain ⟨hne, hsnug⟩ := hts t (by simp)
      obtain ⟨u, d, rfl⟩ := (List.eq_nil_or_concat t).resolve_left hne
      obtain rfl : c = d := by simpa using congrArg List.getLast? hw
      rw [hsnug.last c (by simp)] at hc
      cases hc
    · rw [List.concat_eq_append] at hw hb
      rw [← List.append_assoc] at hw
      obtain ⟨hstart, hd⟩ := List.append_inj' hw rfl
      obtain rfl : c = d := by simpa using hd
      exact ⟨a, b, hstart, ih (fun x hx => hts x (by simp [hx])) hb⟩

theorem of_blank_append {l : Text} (hl : blank l = true) (hts : ∀ t ∈ ts, Solid t)
    (h : InOrder ts (l ++ w)) : InOrder ts w := by
  induction l with
  | nil => exact h
  | cons c l ih =>
    simp only [blank, List.all_cons, Bool.and_eq_true] at hl
    exact ih hl.2 (drop_blank hl.1 hts h)

theorem of_append_blank {r : Text} (hr : blank r = true) (hts : ∀ t ∈ ts, Solid t)
    (h : InOrder ts (w ++ r)) : InOrder ts w := by
  induction r generalizing w with
  | nil => simpa using h
  | cons c r ih =>
    simp only [blank, List.all_cons, Bool.and_eq_true] at hr
    rw [← List.singleton_append, ← List.append_assoc] at h
    exact dropLast_blank hr.1 hts (ih hr.2 h)

theorem trim (hts : ∀ t ∈ ts, Solid t) (h : InOrder ts w) : InOrder ts (Text.trim w) := by
  obtain ⟨l, r, hl, hr, hw⟩ := trim_spec w
  rw [hw] at h
  exact of_blank_append hl hts (of_append_blank hr hts h)

theorem solid_trim {t : Text} (h : blank t = false) : Solid (Text.trim t) := by
  refine ⟨fun ht => ?_, snug_trim t⟩
  rw [trim_eq_nil, h] at ht
  cases ht

/-- A text has itself in it, blanks at its ends cut off. -/
theorem trim_self (t : Text) : InOrder [Text.trim t] t := by
  obtain ⟨l, r, -, -, ht⟩ := trim_spec t
  exact ⟨l, r, ht, trivial⟩

end InOrder

/-! ## Part by part -/

/-- Texts occur in order in parts, the first ones in the first part, and so
on. -/
inductive Covered : List Text → List Text → Prop
  | nil : Covered [] []
  | cons {ts us : List Text} {w : Text} {ws : List Text} :
      InOrder ts w → Covered us ws → Covered (ts ++ us) (w :: ws)

theorem Covered.append {ts us : List Text} {ws vs : List Text} (h : Covered ts ws)
    (hv : Covered us vs) : Covered (ts ++ us) (ws ++ vs) := by
  induction h with
  | nil => exact hv
  | cons ht _ ih => rw [List.append_assoc]; exact .cons ht ih

theorem Covered.joined {ts ws : List Text} (h : Covered ts ws) (separator : Text) :
    InOrder ts (Text.joined separator ws) := by
  induction h with
  | nil => trivial
  | @cons ts us w ws ht hrest ih =>
    cases ws with
    | nil =>
      cases hrest
      rw [List.append_nil]
      exact ht
    | cons v ws => exact (ht.append_right separator).append ih

end BoundSql.Text
