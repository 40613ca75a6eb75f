/-
Cutting text into pieces, part by part.

A text put together from two parts is cut into the pieces of the parts, unless
a percent sign at the end of the first part takes the first character of the
second one with it. `Seam` names the places where that cannot happen, and
`scan_append` is what follows.
-/
import BoundSql.Fragment.Substitution
import BoundSql.Proofs.TrimFacts

namespace BoundSql

/-- Whether a percent sign in front of a text would take its first character
with it. -/
def Text.attaches : Text → Bool
  | [] => false
  | c :: _ => c == '%' || c == 's' || c == 'd' || c == 'f'

/-- A place between two texts where no percent sign reaches from one into the
other. -/
def Seam (a b : Text) : Prop := a.getLast? ≠ some '%' ∨ b.attaches = false

theorem Seam.of_last {a b : Text} (h : a.getLast? ≠ some '%') : Seam a b := .inl h

theorem Seam.of_attaches {a b : Text} (h : b.attaches = false) : Seam a b := .inr h

theorem Seam.of_not_mem {a : Text} (b : Text) (h : '%' ∉ a) : Seam a b :=
  .of_last fun hl => h (List.mem_of_getLast? hl)

theorem Seam.right {a b c : Text} (h : Seam (a ++ b) c) : Seam b c := by
  rcases h with h | h
  · refine .inl fun hb => h ?_
    rw [List.getLast?_append, hb, Option.some_or]
  · exact .inr h

namespace Piece

@[simp] theorem token?_char (c : Char) : (Piece.char c).token? = none := rfl
@[simp] theorem token?_percent : Piece.percent.token? = none := rfl
@[simp] theorem token?_token (p : Placeholder) : (Piece.token p).token? = some p := rfl

theorem tokens_chars (t : Text) : (t.map Piece.char).filterMap Piece.token? = [] := by
  rw [List.filterMap_map, List.filterMap_eq_nil_iff]
  exact fun _ _ => rfl

/-! ## Characters that stand for themselves -/

theorem scan_cons {c : Char} {t : Text} (h : c = '%' → t.attaches = false) :
    scan (c :: t) = .char c :: scan t := by
  by_cases hc : c = '%'
  · subst hc
    cases t with
    | nil => simp [scan]
    | cons d t =>
      have hd := h rfl
      simp only [Text.attaches, Bool.or_eq_false_iff, beq_eq_false_iff_ne] at hd
      obtain ⟨⟨⟨h1, h2⟩, h3⟩, h4⟩ := hd
      rw [scan] <;> simp_all
  · rw [scan] <;> simp_all

/-- A piece in front of a text is cut off as it is. -/
theorem scan_text_append {p : Piece} {t : Text} (h : p = .char '%' → Text.attaches t = false) :
    scan (p.text ++ t) = p :: scan t := by
  cases p with
  | char c => exact scan_cons fun hc => h (by rw [hc])
  | percent => rfl
  | token p => cases p <;> rfl

/-- Induction on a text piece by piece, as it is cut. -/
theorem scan_induction {P : Text → Prop} (nil : P [])
    (cons : ∀ (p : Piece) (rest : Text), (p = .char '%' → Text.attaches rest = false) → P rest →
      P (p.text ++ rest)) (t : Text) : P t := by
  induction t using scan.induct with
  | case1 => exact nil
  | case2 rest ih => exact cons .percent rest (by simp) ih
  | case3 rest ih => exact cons (.token .string) rest (by simp) ih
  | case4 rest ih => exact cons (.token .integer) rest (by simp) ih
  | case5 rest ih => exact cons (.token .decimal) rest (by simp) ih
  | case6 c rest h1 h2 h3 h4 ih =>
    refine cons (.char c) rest (fun hc => ?_) ih
    obtain rfl : c = '%' := by simpa using hc
    cases rest with
    | nil => rfl
    | cons d rest =>
      have h1 := h1 rest rfl; have h2 := h2 rest rfl; have h3 := h3 rest rfl; have h4 := h4 rest rfl
      simp_all [Text.attaches]

/-! ## Parts -/

theorem scan_append {a b : Text} (h : Seam a b) : scan (a ++ b) = scan a ++ scan b := by
  induction a using scan_induction with
  | nil => rfl
  | cons p rest hp ih =>
    have hpb : p = .char '%' → Text.attaches (rest ++ b) = false := by
      rintro rfl
      cases rest with
      | nil => simpa [Seam, text] using h
      | cons d rest => exact hp rfl
    rw [List.append_assoc, scan_text_append hpb, scan_text_append hp, ih h.right, List.cons_append]

theorem scan_of_not_mem {t : Text} (h : '%' ∉ t) : scan t = t.map .char := by
  induction t with
  | nil => rfl
  | cons c t ih =>
    simp only [List.mem_cons, not_or] at h
    rw [scan_cons fun hc => absurd hc.symm h.1, ih h.2]
    rfl

/-! ## Blanks -/

theorem attaches_of_blank {t : Text} (h : Text.blank t = true) : t.attaches = false := by
  cases t with
  | nil => rfl
  | cons c t =>
    have hc : Text.isBlank c = true := List.all_eq_true.mp h c List.mem_cons_self
    simp only [Text.attaches, Bool.or_eq_false_iff, beq_eq_false_iff_ne]
    refine ⟨⟨⟨?_, ?_⟩, ?_⟩, ?_⟩ <;> rintro rfl <;> revert hc <;> decide

theorem not_mem_of_blank {t : Text} (h : Text.blank t = true) : '%' ∉ t := by
  intro hm
  have hc : Text.isBlank '%' = true := List.all_eq_true.mp h _ hm
  revert hc
  decide

/-- A text is cut into the pieces of its middle, with blanks before and behind
them. -/
theorem scan_trim (t : Text) :
    ∃ l r, Text.blank l = true ∧ Text.blank r = true ∧
      scan t = l.map .char ++ (scan (Text.trim t) ++ r.map .char) := by
  obtain ⟨l, r, hl, hr, ht⟩ := Text.trim_spec t
  refine ⟨l, r, hl, hr, ?_⟩
  generalize Text.trim t = m at ht
  subst ht
  have hseam : Seam l (m ++ r) := .of_last fun h => not_mem_of_blank hl (List.mem_of_getLast? h)
  rw [List.append_assoc, scan_append hseam, scan_append (.of_attaches (attaches_of_blank hr)),
    scan_of_not_mem (not_mem_of_blank hl), scan_of_not_mem (not_mem_of_blank hr)]

end Piece

/-! ## Placeholders -/

theorem placeholders_append {a b : Text} (h : Seam a b) :
    placeholders (a ++ b) = placeholders a ++ placeholders b := by
  simp [placeholders, Piece.scan_append h]

theorem placeholders_of_not_mem {t : Text} (h : '%' ∉ t) : placeholders t = [] := by
  rw [placeholders, Piece.scan_of_not_mem h, Piece.tokens_chars]

theorem placeholders_trim (t : Text) : placeholders (Text.trim t) = placeholders t := by
  obtain ⟨l, r, -, -, ht⟩ := Piece.scan_trim t
  rw [placeholders, placeholders, ht, List.filterMap_append, List.filterMap_append,
    Piece.tokens_chars, Piece.tokens_chars, List.append_nil, List.nil_append]

@[simp] theorem placeholders_text (p : Placeholder) : placeholders p.text = [p] := by
  cases p <;> rfl

end BoundSql
