/-
What filling does to the pieces of a text.

The text `Fragment.inlined` makes is text with placeholders again, and
`scan_fill` says into which pieces it is cut: those of the text before, with
the literal of a binding, percent signs doubled, for each placeholder filled
(`splice`). So the bindings of a fragment may be put in at once or in two
rounds (`fill_splice`), and what a literal holds is never read as a
placeholder.
-/
import BoundSql.Proofs.LiteralFacts
import BoundSql.Proofs.ScanFacts

namespace BoundSql

open Piece (scan)
open Text (isBlank Snug)

/-! ## Literals in pieces -/

/-- The piece a character of a literal is in text with placeholders. -/
def Piece.ofChar (c : Char) : Piece := if c = '%' then .percent else .char c

/-- The pieces of a text with the literals of bindings in place of its
placeholders, as long as there are bindings. -/
def splice : List Piece → List Binding → List Piece
  | .token _ :: rest, b :: bs => b.literal.map Piece.ofChar ++ splice rest bs
  | p :: rest, bs => p :: splice rest bs
  | [], _ => []

theorem splice_nil (ps : List Piece) : splice ps [] = ps := by
  induction ps with
  | nil => rfl
  | cons p ps ih => rw [splice, ih]; simp

theorem literal_doubled_cons (c : Char) (t : Text) :
    Percent.doubled.literal (c :: t) = (Piece.ofChar c).text ++ Percent.doubled.literal t := by
  by_cases hc : c = '%' <;> simp [Percent.literal, Piece.ofChar, Piece.text, hc]

theorem scan_literal_append (t rest : Text) :
    scan (Percent.doubled.literal t ++ rest) = t.map Piece.ofChar ++ scan rest := by
  induction t with
  | nil => rfl
  | cons c t ih =>
    have hc : Piece.ofChar c = .char '%' → Text.attaches (Percent.doubled.literal t ++ rest) = false := by
      unfold Piece.ofChar
      split <;> simp_all
    rw [literal_doubled_cons, List.append_assoc, Piece.scan_text_append hc, ih]
    rfl

theorem fill_literal_append (percent : Percent) (t : Text) (ps : List Piece) (bs : List Binding) :
    fill percent (t.map Piece.ofChar ++ ps) bs = percent.literal t ++ fill percent ps bs := by
  induction t with
  | nil => cases percent <;> rfl
  | cons c t ih =>
    by_cases hc : c = '%' <;> cases percent <;>
      simp_all [Piece.ofChar, fill, Percent.literal, Percent.sign]

/-! ## Filling part by part -/

theorem fill_nil (ps : List Piece) : fill .doubled ps [] = ps.flatMap Piece.text := by
  induction ps with
  | nil => rfl
  | cons p ps ih => cases p <;> simp [fill, ih, Piece.text, Percent.sign]

theorem fill_append {percent : Percent} {ps qs : List Piece} {bs cs : List Binding}
    (h : (ps.filterMap Piece.token?).length = bs.length) :
    fill percent (ps ++ qs) (bs ++ cs) = fill percent ps bs ++ fill percent qs cs := by
  induction ps generalizing bs with
  | nil =>
    obtain rfl : bs = [] := by simpa using h.symm
    rfl
  | cons p ps ih =>
    cases p with
    | char c => simp [fill, ih h]
    | percent => simp [fill, ih h]
    | token p =>
      cases bs with
      | nil => simp at h
      | cons b bs =>
        have h' : (ps.filterMap Piece.token?).length = bs.length := by simpa using h
        simp [fill, ih h']

theorem fill_chars_append (percent : Percent) (t : Text) (ps : List Piece) (bs : List Binding) :
    fill percent (t.map .char ++ ps) bs = t ++ fill percent ps bs := by
  induction t with
  | nil => rfl
  | cons c t ih => simp [fill, ih]

theorem fill_append_chars (percent : Percent) (ps : List Piece) (bs : List Binding) (t : Text) :
    fill percent (ps ++ t.map .char) bs = fill percent ps bs ++ t := by
  induction ps generalizing bs with
  | nil => induction t <;> simp_all [fill]
  | cons p ps ih =>
    cases p with
    | char | percent => simp [fill, ih]
    | token p => cases bs <;> simp [fill, ih]

/-! ## Filled text is cut into spliced pieces -/

theorem attaches_fill {t : Text} (h : t.attaches = false) (percent : Percent) (bs : List Binding) :
    Text.attaches (fill percent (scan t) bs) = false := by
  induction t using Piece.scan_induction with
  | nil => rfl
  | cons p rest hp ih =>
    rw [Piece.scan_text_append hp]
    cases p with
    | char c => exact h
    | percent => simp [Piece.text, Text.attaches] at h
    | token p => simp [Piece.text, Placeholder.text, Text.attaches] at h

/-- Filled text is cut into the pieces of the text before, spliced. -/
theorem scan_fill (t : Text) (bs : List Binding) :
    scan (fill .doubled (scan t) bs) = splice (scan t) bs := by
  induction t using Piece.scan_induction generalizing bs with
  | nil => rfl
  | cons p rest hp ih =>
    rw [Piece.scan_text_append hp]
    cases p with
    | char c =>
      have hc : Piece.char c = .char '%' → Text.attaches (fill .doubled (scan rest) bs) = false :=
        fun hc => attaches_fill (hp hc) _ _
      rw [splice, ← ih, ← Piece.scan_text_append hc]
      · rfl
      · simp
    | percent =>
      rw [splice, ← ih, ← Piece.scan_text_append (p := .percent) (by simp)]
      · rfl
      · simp
    | token p =>
      cases bs with
      | nil =>
        rw [splice_nil, fill_nil, ← Piece.scan_text_append (p := .token p) (by simp),
          Piece.text_scan]
      | cons b bs => rw [splice, ← ih, ← scan_literal_append, fill]

/-- Bindings put in in two rounds are the bindings put in at once. -/
theorem fill_splice (percent : Percent) (ps : List Piece) (bs cs : List Binding) :
    fill percent (splice ps bs) cs = fill percent ps (bs ++ cs) := by
  fun_induction splice ps bs with
  | case1 p rest b bs ih => rw [fill_literal_append, ih, List.cons_append, fill]
  | case2 p rest bs hp ih =>
    cases p with
    | char | percent => simp [fill, ih]
    | token p =>
      cases bs with
      | nil => rw [splice_nil, List.nil_append]
      | cons b bs => exact absurd rfl (hp p b bs rfl)
  | case3 => rfl

theorem token?_ofChar (c : Char) : (Piece.ofChar c).token? = none := by
  unfold Piece.ofChar
  split <;> rfl

theorem tokens_splice (ps : List Piece) (bs : List Binding) :
    (splice ps bs).filterMap Piece.token? = (ps.filterMap Piece.token?).drop bs.length := by
  fun_induction splice ps bs with
  | case1 p rest b bs ih =>
    simp [ih, List.filterMap_map, token?_ofChar]
  | case2 p rest bs hp ih =>
    cases p with
    | char | percent => simpa [List.filterMap_cons] using ih
    | token p =>
      cases bs with
      | nil => rw [splice_nil]; rfl
      | cons b bs => exact absurd rfl (hp p b bs rfl)
  | case3 => simp

/-! ## The ends of filled text -/

theorem literal_ne_nil {t : Text} (h : t ≠ []) (percent : Percent) : percent.literal t ≠ [] := by
  cases percent with
  | single => exact h
  | doubled =>
    cases t with
    | nil => exact absurd rfl h
    | cons c t =>
      rw [literal_doubled_cons]
      unfold Piece.ofChar
      split <;> simp [Piece.text]

theorem snug_literal {t : Text} (h : Snug t) (percent : Percent) : Snug (percent.literal t) := by
  cases percent with
  | single => exact h
  | doubled =>
    refine ⟨fun c hc => ?_, fun c hc => ?_⟩
    · cases t with
      | nil => simp [Percent.literal] at hc
      | cons d t =>
        have hd := h.head d (by simp)
        rw [literal_doubled_cons] at hc
        unfold Piece.ofChar at hc
        split at hc
        · obtain rfl : '%' = c := by simpa [Piece.text] using hc
          decide
        · obtain rfl : d = c := by simpa [Piece.text] using hc
          exact hd
    · obtain rfl | ⟨t, d, rfl⟩ := List.eq_nil_or_concat t
      · simp [Percent.literal] at hc
      · have hd := h.last d (by simp)
        simp only [Percent.literal, List.concat_eq_append, List.flatMap_append,
          List.getLast?_append, List.flatMap_singleton] at hc
        split at hc
        · obtain rfl : '%' = c := by simpa using hc
          decide
        · obtain rfl : d = c := by simpa using hc
          exact hd

/-- What a piece becomes in filled text, whatever follows it: something to see
if the piece is. -/
theorem fill_cons (percent : Percent) (p : Piece) (bs : List Binding) :
    ∃ w cs, w ≠ [] ∧ (Snug p.text → Snug w) ∧
      ∀ ps, fill percent (p :: ps) bs = w ++ fill percent ps cs := by
  cases p with
  | char c => exact ⟨[c], bs, by simp, id, fun ps => rfl⟩
  | percent =>
    refine ⟨percent.sign, bs, ?_, fun _ => ?_, fun ps => rfl⟩
    · cases percent <;> simp [Percent.sign]
    · cases percent <;> exact .of_all rfl
  | token p =>
    cases bs with
    | nil => exact ⟨p.text, [], by simp [Placeholder.text], id, fun ps => rfl⟩
    | cons b bs =>
      exact ⟨percent.literal b.literal, bs, literal_ne_nil b.literal_ne_nil percent,
        fun _ => snug_literal b.snug_literal percent, fun ps => rfl⟩

theorem fill_eq_nil {percent : Percent} {t : Text} {bs : List Binding} :
    fill percent (scan t) bs = [] ↔ t = [] := by
  induction t using Piece.scan_induction with
  | nil => simp [scan, fill]
  | cons p rest hp ih =>
    obtain ⟨w, cs, hw, -, hfill⟩ := fill_cons percent p bs
    have hp' : p.text ≠ [] := by cases p <;> simp [Piece.text, Placeholder.text]
    simp [Piece.scan_text_append hp, hfill, hw, hp']

theorem snug_piece {p : Piece} {c : Char} (h : c ∈ p.text) (hc : isBlank c = false) :
    Snug p.text := by
  cases p with
  | char d =>
    obtain rfl : c = d := by simpa [Piece.text] using h
    exact .of_forall (by simpa [Piece.text] using hc)
  | percent => exact .of_all rfl
  | token p => cases p <;> exact .of_all rfl

theorem head_fill {t : Text} (h : ∀ c ∈ t.head?, isBlank c = false) (percent : Percent)
    (bs : List Binding) : ∀ c ∈ (fill percent (scan t) bs).head?, isBlank c = false := by
  induction t using Piece.scan_induction with
  | nil => simp [scan, fill]
  | cons p rest hp ih =>
    obtain ⟨w, cs, hw, hsnug, hfill⟩ := fill_cons percent p bs
    obtain ⟨d, u, hd⟩ : ∃ d u, p.text = d :: u := by cases p <;> exact ⟨_, _, rfl⟩
    have hp' : Snug p.text := snug_piece (by rw [hd]; exact List.mem_cons_self) (h d (by simp [hd]))
    intro c hc
    rw [Piece.scan_text_append hp, hfill, List.head?_append] at hc
    obtain ⟨e, w, rfl⟩ := List.exists_cons_of_ne_nil hw
    exact (hsnug hp').head c (by simpa using hc)

theorem last_fill {t : Text} (h : ∀ c ∈ t.getLast?, isBlank c = false) (percent : Percent)
    (bs : List Binding) : ∀ c ∈ (fill percent (scan t) bs).getLast?, isBlank c = false := by
  induction t using Piece.scan_induction generalizing bs with
  | nil => simp [scan, fill]
  | cons p rest hp ih =>
    obtain ⟨w, cs, hw, hsnug, hfill⟩ := fill_cons percent p bs
    intro c hc
    rw [Piece.scan_text_append hp, hfill] at hc
    by_cases hrest : rest = []
    · subst hrest
      obtain ⟨d, hd⟩ : ∃ d, p.text.getLast? = some d := by cases p <;> exact ⟨_, rfl⟩
      have hp' : Snug p.text :=
        snug_piece (List.mem_of_getLast? hd) (h d (by rw [List.append_nil]; exact hd))
      exact (hsnug hp').last c (by simpa [scan, fill] using hc)
    · have hfilled : fill percent (scan rest) cs ≠ [] := mt fill_eq_nil.mp hrest
      rw [List.getLast?_append, List.getLast?_eq_some_getLast hfilled, Option.some_or,
        ← List.getLast?_eq_some_getLast] at hc
      refine ih (fun d hd => h d ?_) cs c hc
      rw [List.getLast?_append, Option.mem_def.mp hd, Option.some_or]
      rfl

/-- Blanks at the ends stay where they are, so filling can wait until they are
cut off. -/
theorem fill_trim (percent : Percent) (t : Text) (bs : List Binding) :
    fill percent (scan (Text.trim t)) bs = Text.trim (fill percent (scan t) bs) := by
  obtain ⟨l, r, hl, hr, ht⟩ := Piece.scan_trim t
  have hsnug := Text.snug_trim t
  have hmiddle : Snug (fill percent (scan (Text.trim t)) bs) :=
    ⟨head_fill hsnug.head percent bs, last_fill hsnug.last percent bs⟩
  rw [ht, fill_chars_append, fill_append_chars, ← List.append_assoc, Text.trim_eq hl hr hmiddle]

namespace Fragment

theorem inlined_eq (f : Fragment) : f.inlined = fill .doubled (scan f.sql) f.bindings := by
  unfold inlined
  split
  next h => rw [List.isEmpty_iff.mp h, fill_nil, Piece.text_scan]
  next => rfl

/-- Embedded text is cut into the pieces of the fragment, spliced. -/
theorem scan_inlined (f : Fragment) : scan f.inlined = splice (scan f.sql) f.bindings := by
  rw [inlined_eq, scan_fill]

/-- Embedding takes as many placeholders out of a text as it has bindings. -/
theorem placeholders_inlined (f : Fragment) :
    placeholders f.inlined = (placeholders f.sql).drop f.bindings.length := by
  rw [placeholders, scan_inlined, tokens_splice, placeholders]

/-- What is embedded and then sent is what would have been sent. -/
theorem rendered_inlined (f : Fragment) : (ofText f.inlined).rendered = f.rendered := by
  rw [rendered, sql_ofText, bindings_ofText, scan_inlined, fill_splice, List.append_nil,
    rendered]

/-! ## Filling in stages -/

/-- Text without placeholders has no use for bindings. -/
theorem inlined_of_no_placeholders {t : Text} (h : placeholders t = []) (bs : List Binding) :
    inlined ⟨t, bs⟩ = t := by
  have hnone : ((scan t).filterMap Piece.token?).length = ([] : List Binding).length := by
    rw [← placeholders, h]
    rfl
  have hfill : fill .doubled (scan t ++ []) ([] ++ bs) = fill .doubled (scan t) [] ++ [] :=
    fill_append hnone
  rw [List.append_nil, List.nil_append, fill_nil, Piece.text_scan] at hfill
  rw [inlined_eq, hfill]
  exact List.append_nil t

/-- **Bindings can be put in at once or in stages.** Whatever the text, filling it
with some bindings and the result with more of them comes to the same as filling
it with all of them, be it to embed it or to send it. Without bindings the text
is read and written back unchanged, so taking it as it is makes no difference;
and once each placeholder has had a binding, no more bindings change anything. -/
theorem filled_in_stages (sql : Text) (bs cs : List Binding) :
    inlined ⟨inlined ⟨sql, bs⟩, cs⟩ = inlined ⟨sql, bs ++ cs⟩ ∧
    rendered ⟨inlined ⟨sql, bs⟩, cs⟩ = rendered ⟨sql, bs ++ cs⟩ ∧
    fill .doubled (scan sql) [] = sql ∧
    ((placeholders sql).length ≤ bs.length →
      inlined ⟨inlined ⟨sql, bs⟩, cs⟩ = inlined ⟨sql, bs⟩) := by
  refine ⟨?_, ?_, ?_, fun h => ?_⟩
  · rw [inlined_eq ⟨inlined _, cs⟩, inlined_eq ⟨sql, bs ++ cs⟩, scan_inlined, fill_splice]
  · rw [rendered, scan_inlined, fill_splice, rendered]
  · rw [fill_nil, Piece.text_scan]
  · have hnone : placeholders (inlined ⟨sql, bs⟩) = [] := by
      rw [placeholders_inlined]
      exact List.drop_eq_nil_of_le h
    exact inlined_of_no_placeholders hnone cs

/-- A doubled percent sign right before a placeholder, one that stands alone, and
a binding that reads like placeholders itself. -/
theorem filled_in_stages_sample :
    let sql : Text := "a LIKE %%%s AND b % 2 = %d"
    let first : List Binding := [⟨.string "%s%%", .string⟩]
    let second : List Binding := [⟨.int 1, .int⟩, ⟨.int 2, .int⟩]
    (placeholders sql).length ≤ (first ++ second).length ∧
    inlined ⟨inlined ⟨sql, first⟩, second⟩ = "a LIKE %%'%%s%%%%' AND b % 2 = 1".toList ∧
    rendered ⟨inlined ⟨sql, first⟩, second⟩ = "a LIKE %'%s%%' AND b % 2 = 1".toList ∧
    inlined ⟨inlined ⟨sql, first ++ second⟩, first⟩ =
      "a LIKE %%'%%s%%%%' AND b % 2 = 1".toList := by
  intro sql first second
  have hlength : (placeholders sql).length ≤ (first ++ second).length := by decide
  obtain ⟨hinlined, hrendered, -⟩ := filled_in_stages sql first second
  obtain ⟨-, -, -, hfilled⟩ := filled_in_stages sql (first ++ second) first
  refine ⟨hlength, ?_, ?_, ?_⟩
  · rw [hinlined]
    rfl
  · rw [hrendered]
    rfl
  · rw [hfilled hlength]
    rfl

end Fragment

end BoundSql
