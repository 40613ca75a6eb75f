/-
Statements with the literals of their values in them, and what that does to
fragments.

`Spliced f g` says two things at once: the placeholders of `f` line up with its
bindings, and `g` is `f` with those bindings put in. Neither goes through
concatenation without the other, since the literals find their places only
where the placeholders line up.
-/
import BoundSql.Proofs.Edits
import BoundSql.Proofs.Tidy

namespace BoundSql

open Fragment (ofText)
open List (Forall₂)

/-! ## Values as raw SQL -/

/-- The value as raw SQL: its placeholder together with its binding, or NULL
where it has none. Raw SQL stays as it is. -/
def Value.spliced : Value → Value
  | .raw f => .raw f
  | v =>
    match v.binding? with
    | some b => .raw (.ofBinding b)
    | none => .raw (ofText "NULL")

/-- Values spliced, and raw SQL left as it is. -/
def Edit.splicing : Edit := ⟨id, Value.spliced⟩

def Row.spliced (row : Row) : Row := row.edited .splicing

/-- Statements with all values spliced: those of conditions and those of the
assignments of a duplicate key. -/
def Statements.spliced (st : Statements) : Statements := st.edited .splicing

/-! ## Fragments -/

/-- The placeholders of a fragment are those of its bindings, in order, and
none of these is NULL. -/
def Fragment.Aligned (f : Fragment) : Prop :=
  placeholders f.sql = f.bindings.map Binding.placeholder ∧ ∀ b ∈ f.bindings, b.isSqlNull = false

/-- A fragment has as many placeholders as bindings. -/
def Fragment.Matched (f : Fragment) : Prop := (placeholders f.sql).length = f.bindings.length

namespace Fragment.Matched

variable {f g : Fragment}

theorem ofText {t : Text} (h : placeholders t = []) : (Fragment.ofText t).Matched := by
  rw [Matched, sql_ofText, h]
  rfl

theorem append (hf : f.Matched) (hg : g.Matched) (hs : Seam f.sql g.sql) : (f ++ g).Matched := by
  rw [Matched, sql_append, bindings_append, placeholders_append hs, List.length_append,
    List.length_append, hf, hg]

theorem filled (h : f.Matched) : f.Filled := Nat.le_of_eq h

/-- Bindings are put in part by part. -/
theorem fill_append (h : f.Matched) (hs : Seam f.sql g.sql) (percent : Percent) :
    fill percent (Piece.scan (f ++ g).sql) (f ++ g).bindings =
      fill percent (Piece.scan f.sql) f.bindings ++ fill percent (Piece.scan g.sql) g.bindings := by
  rw [sql_append, bindings_append, Piece.scan_append hs, BoundSql.fill_append h]

theorem inlined_append (h : f.Matched) (hs : Seam f.sql g.sql) :
    (f ++ g).inlined = f.inlined ++ g.inlined := by
  rw [inlined_eq, inlined_eq, inlined_eq, h.fill_append hs]

theorem rendered_append (h : f.Matched) (hs : Seam f.sql g.sql) :
    (f ++ g).rendered = f.rendered ++ g.rendered := h.fill_append hs .single

end Fragment.Matched

namespace Fragment.Aligned

variable {f g : Fragment}

theorem ofText {t : Text} (h : placeholders t = []) : (Fragment.ofText t).Aligned := ⟨h, by simp⟩

theorem append (hf : f.Aligned) (hg : g.Aligned) (hs : Seam f.sql g.sql) : (f ++ g).Aligned := by
  refine ⟨?_, fun b hb => ?_⟩
  · rw [sql_append, bindings_append, placeholders_append hs, hf.1, hg.1, List.map_append]
  · exact (List.mem_append.mp hb).elim (hf.2 b) (hg.2 b)

theorem trim (h : f.Aligned) : f.trim.Aligned := ⟨(placeholders_trim f.sql).trans h.1, h.2⟩

theorem matched (h : f.Aligned) : f.Matched := by
  rw [Matched, h.1, List.length_map]

end Fragment.Aligned

/-- A fragment is aligned, and another one is the text it becomes with its
bindings put in. -/
structure Spliced (f g : Fragment) : Prop where
  aligned : f.Aligned
  eq : g = ofText f.inlined

namespace Spliced

variable {f g f' g' : Fragment}

theorem ofText {t : Text} (h : placeholders t = []) : Spliced (ofText t) (ofText t) :=
  ⟨.ofText h, rfl⟩

theorem empty : Spliced .empty .empty := ofText rfl

theorem append (hf : Spliced f f') (hg : Spliced g g') (hs : Seam f.sql g.sql) :
    Spliced (f ++ g) (f' ++ g') where
  aligned := hf.aligned.append hg.aligned hs
  eq := by
    rw [hf.eq, hg.eq, hf.aligned.matched.inlined_append hs]
    rfl

theorem trim (h : Spliced f g) : Spliced f.trim g.trim where
  aligned := h.aligned.trim
  eq := by
    have ht : f.trim.inlined = Text.trim f.inlined := by
      rw [Fragment.inlined_eq, Fragment.inlined_eq]
      exact fill_trim .doubled f.sql f.bindings
    rw [h.eq, ht]
    rfl

theorem isEmpty_eq (h : Spliced f g) : f.sql.isEmpty = g.sql.isEmpty := by
  rw [h.eq, Fragment.sql_ofText, Fragment.inlined_eq, Bool.eq_iff_iff, List.isEmpty_iff,
    List.isEmpty_iff, fill_eq_nil]

/-- What is sent for a fragment does not change. -/
theorem rendered_eq (h : Spliced f g) : g.rendered = f.rendered := by
  rw [h.eq, Fragment.rendered_inlined]

end Spliced

/-! ## Values -/

theorem Fragment.inlined_ofBinding (b : Binding) :
    (Fragment.ofBinding b).inlined = Percent.doubled.literal b.literal := by
  rw [Fragment.inlined_eq]
  cases h : b.placeholder <;> simp [ofBinding, h, Placeholder.text, Placeholder.letter, Piece.scan, fill]

theorem Fragment.aligned_ofBinding {b : Binding} (h : b.isSqlNull = false) :
    (Fragment.ofBinding b).Aligned := by
  refine ⟨by simp [ofBinding], fun c hc => ?_⟩
  obtain rfl : c = b := by simpa [ofBinding] using hc
  exact h

theorem Value.spliced_of_binding {v : Value} {b : Binding} (h : v.binding? = some b) :
    v.spliced = .raw (.ofBinding b) := by
  cases v with
  | raw => cases h
  | bound | plain => rw [spliced, h]; simp

theorem Value.spliced_of_no_binding {v : Value} (hraw : v.isRaw = false) (h : v.binding? = none) :
    v.spliced = .raw (ofText "NULL") := by
  cases v with
  | raw => cases hraw
  | bound | plain => rw [spliced, h]; simp

/-- A value is written as what its splice holds. -/
theorem Value.spliced_fragment {v : Value} (h : v.Tidy) : Spliced v.fragment v.spliced.fragment := by
  rcases v.fragment_cases with ⟨f, rfl, hf⟩ | ⟨b, hb, hf⟩ | ⟨hraw, hb, hf⟩
  · rw [Value.spliced, hf]
    exact .ofText (Fragment.Filled.placeholders_inlined h)
  · have hs : v.spliced.fragment = ofText (Fragment.ofBinding b).inlined := by
      rw [Value.spliced_of_binding hb]; rfl
    rw [hf, hs]
    cases hnull : b.isSqlNull with
    | false => exact ⟨Fragment.aligned_ofBinding hnull, rfl⟩
    | true =>
      rw [Fragment.inlined_ofBinding, Binding.literal_of_isSqlNull hnull]
      exact .ofText rfl
  · rw [hf, Value.spliced_of_no_binding hraw hb]
    exact .ofText rfl

end BoundSql
