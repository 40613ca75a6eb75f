/-
SQL text as a list of segments: single characters, paths in double quotes,
literals that stand in the text, and placeholders with their bindings.

From its segments a text can be written, cut into pieces, filled and split into
lexemes, segment by segment. What it takes is that no two segments stand side
by side that could run into each other: one of two neighbours is always a
character (`Layout`).
-/
import BoundSql.Proofs.Congruence
import BoundSql.Proofs.Lexemes
import Mathlib.Data.List.Chain

namespace BoundSql

open Piece (scan)
open Text (Snug)

inductive Segment where
  | plain (c : Char)
  | path (t : Text)
  | baked (b : Binding)
  | slot (b : Binding)

namespace Segment

def isPlain : Segment → Bool
  | .plain _ => true
  | _ => false

/-- What a character or a path must not have in it, and that no NULL is
bound. -/
def Valid : Segment → Prop
  | .plain c => c ≠ '%' ∧ isMark c = false
  | .path t => ∀ c ∈ t, c ≠ '%' ∧ c ≠ '\x22' ∧ c ≠ '\\'
  | .baked _ => True
  | .slot b => b.isSqlNull = false

/-! ## What is made of a segment -/

/-- The text, with placeholders. -/
def sql : Segment → Text
  | .plain c => [c]
  | .path t => '\x22' :: t ++ ['\x22']
  | .baked b => Percent.doubled.literal b.literal
  | .slot b => b.placeholder.text

def bindings : Segment → List Binding
  | .slot b => [b]
  | _ => []

/-- The pieces the text is cut into. -/
def pieces : Segment → List Piece
  | .plain c => [.char c]
  | .path t => ('\x22' :: t ++ ['\x22']).map .char
  | .baked b => b.literal.map Piece.ofChar
  | .slot b => [.token b.placeholder]

/-- The text a database receives. -/
def sent : Segment → Text
  | .plain c => [c]
  | .path t => '\x22' :: t ++ ['\x22']
  | .baked b | .slot b => b.literal

/-- The lexemes of the text with placeholders. -/
def outline : Segment → List Lexeme
  | .plain c => [.char c]
  | .path t => [.quoted '\x22' t]
  | .baked b => b.lexemes
  | .slot b => [.hole b.placeholder]

/-- The lexemes of the text a database receives. -/
def lexemes : Segment → List Lexeme
  | .plain c => [.char c]
  | .path t => [.quoted '\x22' t]
  | .baked b | .slot b => b.lexemes

/-- The fragment of segments. -/
def write (as : List Segment) : Fragment := ⟨as.flatMap sql, as.flatMap bindings⟩

theorem write_append (as bs : List Segment) : write (as ++ bs) = write as ++ write bs := by
  change Fragment.mk _ _ = Fragment.append _ _
  simp [write, Fragment.append]

variable {a : Segment}

theorem scan_append (h : a.Valid) (rest : Text) : scan (a.sql ++ rest) = a.pieces ++ scan rest := by
  cases a with
  | plain c => exact Piece.scan_cons fun hc => absurd hc h.1
  | path t =>
    have hmem : '%' ∉ '\x22' :: t ++ ['\x22'] := by
      simp only [List.mem_append, List.mem_cons, List.not_mem_nil, or_false, not_or]
      exact ⟨⟨by decide, fun hm => (h _ hm).1 rfl⟩, by decide⟩
    rw [sql, Piece.scan_append (.of_not_mem rest hmem), Piece.scan_of_not_mem hmem, pieces]
  | baked b => exact scan_literal_append b.literal rest
  | slot b => exact Piece.scan_text_append (p := .token b.placeholder) (by simp)

theorem fill_append (a : Segment) (ps : List Piece) (bs : List Binding) :
    fill .single (a.pieces ++ ps) (a.bindings ++ bs) = a.sent ++ fill .single ps bs := by
  cases a with
  | plain c => rfl
  | path t => exact fill_chars_append .single _ ps bs
  | baked b => exact fill_literal_append .single b.literal ps bs
  | slot b => rfl

theorem readAs_pieces (h : a.Valid) : Lexer.ReadAs a.pieces a.outline := by
  cases a with
  | plain c => exact fun rest _ => Lexer.run_char h.2 rest
  | path t => exact Lexer.readAs_path fun c hc => (h c hc).2
  | baked b =>
    intro rest hrest
    rw [pieces, Lexer.run_ofChar]
    exact b.readAs_literal rest hrest
  | slot b => exact fun rest _ => rfl

theorem readAs_sent (h : a.Valid) : Lexer.ReadAs (a.sent.map .char) a.lexemes := by
  cases a with
  | plain c => exact fun rest _ => Lexer.run_char h.2 rest
  | path t => exact Lexer.readAs_path fun c hc => (h c hc).2
  | baked b => exact b.readAs_literal
  | slot b => exact b.readAs_literal

theorem outline_cases (a : Segment) :
    (∃ b, a = .slot b) ∨ a.outline = a.lexemes ∧ a.bindings = [] ∧
      a.outline.filterMap Lexeme.hole? = [] := by
  cases a with
  | plain | path => exact .inr ⟨rfl, rfl, rfl⟩
  | baked b => exact .inr ⟨rfl, rfl, b.lexemes_spec.1⟩
  | slot b => exact .inl ⟨b, rfl⟩

theorem isClosed_lexemes (a : Segment) : ∀ l ∈ a.lexemes, l.isClosed = true := by
  cases a with
  | plain | path => simp [lexemes, Lexeme.isClosed]
  | baked b | slot b => exact b.lexemes_spec.2

/-- The holes of an outline are for the bindings, in order. -/
theorem holes_outline (as : List Segment) :
    (as.flatMap outline).filterMap Lexeme.hole? =
      (as.flatMap bindings).map Binding.placeholder := by
  induction as with
  | nil => rfl
  | cons a as ih =>
    rw [List.flatMap_cons, List.filterMap_append, ih, List.flatMap_cons, List.map_append]
    rcases a.outline_cases with ⟨b, rfl⟩ | ⟨-, hb, hholes⟩
    · rfl
    · rw [hb, hholes]
      rfl

/-- An outline with the literals of the bindings in its holes. -/
theorem plug_outline (as : List Segment) :
    Lexeme.plug (as.flatMap outline) ((as.flatMap bindings).map Binding.lexemes) =
      as.flatMap lexemes := by
  induction as with
  | nil => rfl
  | cons a as ih =>
    rw [List.flatMap_cons, List.flatMap_cons, List.flatMap_cons, List.map_append]
    rcases a.outline_cases with ⟨b, rfl⟩ | ⟨hlexemes, hb, hholes⟩
    · exact congrArg (b.lexemes ++ ·) ih
    · rw [hb, Lexeme.plug_append hholes, hlexemes]
      exact congrArg (a.lexemes ++ ·) ih

/-! ## The ends of a segment -/

/-- Whether a segment is a blank that may be cut off. -/
def isPad : Segment → Bool
  | .plain c => Text.isBlank c
  | _ => false

theorem blank_of_isPad (h : a.isPad = true) : Text.blank a.sql = true ∧ a.bindings = [] := by
  cases a with
  | plain c =>
    have hc : Text.isBlank c = true := h
    exact ⟨by simp [Text.blank, sql, hc], rfl⟩
  | path | baked | slot => cases h

theorem sql_ne_nil (a : Segment) : a.sql ≠ [] := by
  cases a with
  | plain | path | slot => simp [sql, Placeholder.text]
  | baked b => exact literal_ne_nil b.literal_ne_nil .doubled

theorem snug_sql (h : a.isPad = false) : Snug a.sql := by
  cases a with
  | plain c =>
    have hc : Text.isBlank c = false := h
    exact .of_forall (by simpa [sql] using hc)
  | path t =>
    refine ⟨fun c hc => ?_, fun c hc => ?_⟩
    · obtain rfl : '\x22' = c := by simpa [sql] using hc
      decide
    · obtain rfl : '\x22' = c := by simpa [sql, List.getLast?_cons] using hc
      decide
  | baked b => exact snug_literal b.snug_literal .doubled
  | slot b =>
    have hsign : '%' ∈ (Piece.token b.placeholder).text := by simp [Piece.text, Placeholder.text]
    exact snug_piece hsign (by decide)

/-- No literal begins with a gap. -/
theorem leads_literal (b : Binding) : b.literal.leads = false := by
  rcases b.literal_cases with ⟨-, h⟩ | ⟨-, h⟩ | ⟨-, hne, h⟩
  · rw [h]; rfl
  · rw [h]; rfl
  · obtain ⟨c, t, hc⟩ := List.exists_cons_of_ne_nil hne
    have hnumeral := h c (by simp [hc])
    rw [hc, Text.leads, Text.isGap]
    simp only [Bool.or_eq_false_iff, beq_eq_false_iff_ne]
    refine ⟨⟨⟨?_, ?_⟩, ?_⟩, ?_⟩ <;> rintro rfl <;> revert hnumeral <;> decide

/-- Only a character can begin with a gap. -/
theorem isPlain_of_leads {rest : Text} (h : (a.sql ++ rest).leads = true) : a.isPlain = true := by
  cases a with
  | plain => rfl
  | path | slot => cases h
  | baked b =>
    obtain ⟨c, t, hc⟩ := List.exists_cons_of_ne_nil b.literal_ne_nil
    have hleads := leads_literal b
    rw [sql, hc, literal_doubled_cons] at h
    rw [hc] at hleads
    unfold Piece.ofChar at h
    split at h
    · cases h
    · exact absurd h (by simpa [Text.leads, Piece.text] using hleads)

end Segment

/-! ## Layouts -/

/-- Valid segments, of which no two stand side by side that are not plain. -/
structure Layout (as : List Segment) : Prop where
  valid : ∀ a ∈ as, a.Valid
  apart : as.IsChain fun a b => a.isPlain = true ∨ b.isPlain = true

namespace Layout

open Segment (write)

variable {as bs : List Segment}

theorem nil : Layout [] := ⟨by simp, .nil⟩

/-- Characters in front of a layout. -/
theorem chars_append {t : Text} (ht : ∀ c ∈ t, c ≠ '%' ∧ isMark c = false) (h : Layout as) :
    Layout (t.map .plain ++ as) := by
  induction t with
  | nil => exact h
  | cons c t ih =>
    obtain ⟨hvalid, hapart⟩ := ih fun d hd => ht d (by simp [hd])
    refine ⟨fun a ha => ?_, List.isChain_cons.mpr ⟨fun _ _ => .inl rfl, hapart⟩⟩
    rcases List.mem_cons.mp ha with rfl | ha
    · exact ht c (by simp)
    · exact hvalid a ha

theorem append (h : Layout as) (hb : Layout bs) (hl : (write bs).sql.leads = true) :
    Layout (as ++ bs) where
  valid a ha := (List.mem_append.mp ha).elim (h.valid a) (hb.valid a)
  apart := by
    refine h.apart.append hb.apart fun a _ b hb => .inr ?_
    cases bs with
    | nil => cases hb
    | cons c bs =>
      obtain rfl : c = b := by simpa using hb
      exact Segment.isPlain_of_leads (by simpa [write] using hl)

theorem trim (h : Layout as) : Layout (Text.trimAtoms Segment.isPad as) where
  valid a ha := h.valid a ((Text.trimAtoms_infix _ as).subset ha)
  apart := h.apart.infix (Text.trimAtoms_infix _ as)

theorem trim_write (as : List Segment) :
    (write as).trim = write (Text.trimAtoms Segment.isPad as) := by
  have hsql := Text.trim_flatMap (fun a ha => (Segment.blank_of_isPad ha).1)
    (fun a ha => ⟨a.sql_ne_nil, Segment.snug_sql ha⟩) as
  obtain ⟨l, r, hl, hr, has⟩ := Text.exists_trimAtoms Segment.isPad as
  have hpads : ∀ ps : List Segment, (∀ a ∈ ps, a.isPad = true) → ps.flatMap Segment.bindings = [] :=
    fun ps hps => List.flatMap_eq_nil_iff.mpr fun a ha => (Segment.blank_of_isPad (hps a ha)).2
  have hbindings : as.flatMap Segment.bindings =
      (Text.trimAtoms Segment.isPad as).flatMap Segment.bindings := by
    conv => lhs; rw [has]
    rw [List.flatMap_append, List.flatMap_append, hpads l hl, hpads r hr, List.append_nil,
      List.nil_append]
  change Fragment.mk _ _ = Fragment.mk _ _
  rw [write, hsql, hbindings]

theorem sql_write_eq_nil : (write as).sql = [] ↔ as = [] := by
  cases as with
  | nil => simp [write]
  | cons a as => simp [write, a.sql_ne_nil]

/-! ### Segment by segment -/

theorem scan_write (h : Layout as) : scan (write as).sql = as.flatMap Segment.pieces := by
  obtain ⟨hvalid, -⟩ := h
  rw [write]
  induction as with
  | nil => rfl
  | cons a as ih =>
    simp only [List.flatMap_cons] at ih ⊢
    rw [Segment.scan_append (hvalid a (by simp)), ih fun b hb => hvalid b (by simp [hb])]

theorem rendered_write (h : Layout as) : (write as).rendered = as.flatMap Segment.sent := by
  rw [Fragment.rendered, h.scan_write]
  change fill .single _ (as.flatMap Segment.bindings) = _
  clear h
  induction as with
  | nil => rfl
  | cons a as ih =>
    rw [List.flatMap_cons, List.flatMap_cons, List.flatMap_cons, Segment.fill_append, ih]

/-- What is read segment by segment, if a quote at the end of one segment never
meets another one. -/
theorem lexemes_flatMap {read : Segment → List Piece} {out : Segment → List Lexeme}
    (hplain : ∀ c, read (.plain c) = [.char c] ∧ out (.plain c) = [.char c])
    (hread : ∀ a, a.Valid → Lexer.ReadAs (read a) (out a)) (h : Layout as) :
    Piece.lexemes (as.flatMap read) = as.flatMap out := by
  induction as with
  | nil => rfl
  | cons a as ih =>
    obtain ⟨hvalid, hapart⟩ := h
    obtain ⟨hhead, htail⟩ := List.isChain_cons.mp hapart
    have hrest := ih ⟨fun b hb => hvalid b (by simp [hb]), htail⟩
    rw [Piece.lexemes] at hrest ⊢
    rw [List.flatMap_cons, List.flatMap_cons, ← hrest]
    cases ha : a.isPlain with
    | true =>
      cases a with
      | plain c =>
        rw [(hplain c).1, (hplain c).2]
        exact Lexer.run_char (hvalid (.plain c) (by simp)).2 _
      | path | baked | slot => cases ha
    | false =>
      refine hread a (hvalid a (by simp)) _ ?_
      -- behind a segment that is not plain comes a character, or nothing
      cases as with
      | nil => exact .nil
      | cons b as =>
        have hb : b.isPlain = true := by simpa [ha] using hhead b rfl
        cases b with
        | plain c =>
          intro d hd
          rw [List.flatMap_cons, (hplain c).1] at hd
          obtain rfl : c = d := by simpa using hd
          exact (hvalid (.plain c) (by simp)).2
        | path | baked | slot => cases hb

theorem lexemes_sql (h : Layout as) :
    Piece.lexemes (scan (write as).sql) = as.flatMap Segment.outline := by
  rw [h.scan_write]
  exact lexemes_flatMap (fun c => ⟨rfl, rfl⟩) (fun a ha => Segment.readAs_pieces ha) h

theorem lexemes_rendered (h : Layout as) :
    Text.lexemes (write as).rendered = as.flatMap Segment.lexemes := by
  rw [h.rendered_write, Text.lexemes, List.map_flatMap]
  exact lexemes_flatMap (fun c => ⟨rfl, rfl⟩) (fun a ha => Segment.readAs_sent ha) h

end Layout

end BoundSql
