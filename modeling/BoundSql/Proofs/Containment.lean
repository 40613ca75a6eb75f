/-
What a bound string holds stays inside of its literal.

As long as quotes, backslashes and percent signs come from bindings only
(`Rules.clean`), a database splits the SQL it receives at the places the text
with placeholders has, with one complete literal for each placeholder. Two sets
of statements that differ only in what their bound strings hold are split into
the same lexemes, but for what stands inside of string literals.

Both are read off one walk through the compiler: a query and the query of the
same statements with their strings blanked are written from one layout of
segments (`Segmented`).
-/
import BoundSql.Proofs.Segments
import BoundSql.Proofs.Tidy

namespace BoundSql

open Fragment (ofText)
open List (Forall₂)
open Piece (scan)
open Segment (write)

/-! ## Strings blanked -/

/-- A bound string without what it holds. -/
def Binding.blanked : Binding → Binding
  | ⟨.string _, .string⟩ => ⟨.string [], .string⟩
  | b => b

def Fragment.blanked (f : Fragment) : Fragment :=
  { f with bindings := f.bindings.map Binding.blanked }

def Value.blanked : Value → Value
  | .raw f => .raw f.blanked
  | .bound b => .bound b.blanked
  | .plain (.string _) => .plain (.string [])
  | .plain s => .plain s

/-- All strings that are bound as strings blanked, those in raw SQL included. -/
def Edit.blanking : Edit := ⟨Fragment.blanked, Value.blanked⟩

def Segment.blanked : Segment → Segment
  | .plain c => .plain c
  | .path t => .path t
  | .baked b => .baked b.blanked
  | .slot b => .slot b.blanked

theorem Binding.blanked_cases (b : Binding) :
    (∃ t, b = ⟨.string t, .string⟩ ∧ b.blanked = ⟨.string [], .string⟩) ∨ b.blanked = b := by
  unfold Binding.blanked
  split
  next t => exact .inl ⟨t, rfl, rfl⟩
  next => exact .inr rfl

theorem Binding.isSqlNull_blanked (b : Binding) : b.blanked.isSqlNull = b.isSqlNull := by
  rcases b.blanked_cases with ⟨t, rfl, h⟩ | h <;> rw [h]
  rfl

theorem Segment.isPlain_blanked (a : Segment) : a.blanked.isPlain = a.isPlain := by cases a <;> rfl

theorem Segment.isPad_blanked (a : Segment) : a.blanked.isPad = a.isPad := by cases a <;> rfl

theorem Segment.valid_blanked {a : Segment} (h : a.Valid) : a.blanked.Valid := by
  cases a with
  | plain | path | baked => exact h
  | slot b => exact (b.isSqlNull_blanked).trans h

theorem Layout.blanked {as : List Segment} (h : Layout as) : Layout (as.map Segment.blanked) where
  valid a ha := by
    obtain ⟨b, hb, rfl⟩ := List.mem_map.mp ha
    exact Segment.valid_blanked (h.valid b hb)
  apart := by
    rw [List.isChain_map]
    simpa only [Segment.isPlain_blanked] using h.apart

/-! ## What is asked of callers -/

/-- The characters that may stand outside of literals. -/
def isClean (c : Char) : Bool :=
  c != '\x27' && c != '\x22' && c != '\\' && c != '`' && c != '%'

def Text.Clean (t : Text) : Prop := ∀ c ∈ t, isClean c = true

/-- Clean characters and placeholders are clean, a percent sign is not. -/
def Piece.Clean : Piece → Prop
  | .char c => isClean c = true
  | .percent => False
  | .token _ => True

/-- Raw SQL of clean characters and placeholders, with a binding for each
placeholder, no two of them side by side. -/
structure Fragment.Clean (f : Fragment) : Prop where
  pieces : ∀ x ∈ scan f.sql, x.Clean
  filled : f.Filled
  separated : (scan f.sql).IsChain fun x y => x.token? = none ∨ y.token? = none

def Column.Clean : Column → Prop
  | .name t => t.Clean
  | .raw f => f.Clean
  | .json s => s.column.Clean ∧ ∀ node ∈ s.nodes, node.Clean

def Value.Clean : Value → Prop
  | .raw f => f.Clean
  | .bound _ | .plain _ => True

def TablePrefix.Clean (p : TablePrefix) : Prop := ∀ t ∈ p.text, t.Clean

/-- No quotes, backslashes and backticks but in bindings, and percent signs in
placeholders only. -/
def Rules.clean : Rules where
  word := Text.Clean
  column := Column.Clean
  value := Value.Clean
  raw := Fragment.Clean

/-! The rules can be checked. -/

instance (t : Text) : Decidable t.Clean := decidable_of_iff (t.all isClean) List.all_eq_true

instance : DecidablePred Piece.Clean
  | .char c => inferInstanceAs (Decidable (isClean c = true))
  | .percent => .isFalse id
  | .token _ => .isTrue trivial

instance (f : Fragment) : Decidable f.Clean :=
  decidable_of_iff ((∀ x ∈ scan f.sql, x.Clean) ∧ f.Filled ∧
      (scan f.sql).IsChain fun x y => x.token? = none ∨ y.token? = none)
    ⟨fun h => ⟨h.1, h.2.1, h.2.2⟩, fun h => ⟨h.pieces, h.filled, h.separated⟩⟩

instance : DecidablePred Column.Clean
  | .name t => inferInstanceAs (Decidable t.Clean)
  | .raw f => inferInstanceAs (Decidable f.Clean)
  | .json s => inferInstanceAs (Decidable (s.column.Clean ∧ ∀ node ∈ s.nodes, node.Clean))

instance : DecidablePred Value.Clean
  | .raw f => inferInstanceAs (Decidable f.Clean)
  | .bound _ | .plain _ => .isTrue trivial

instance (p : TablePrefix) : Decidable p.Clean :=
  inferInstanceAs (Decidable (∀ t ∈ p.text, t.Clean))

instance : DecidablePred Rules.clean.word := inferInstanceAs (DecidablePred Text.Clean)
instance : DecidablePred Rules.clean.column := inferInstanceAs (DecidablePred Column.Clean)
instance : DecidablePred Rules.clean.value := inferInstanceAs (DecidablePred Value.Clean)
instance : DecidablePred Rules.clean.raw := inferInstanceAs (DecidablePred Fragment.Clean)

theorem plain_of_isClean {c : Char} (h : isClean c = true) : c ≠ '%' ∧ isMark c = false := by
  simp only [isClean, Bool.and_eq_true, bne_iff_ne] at h
  obtain ⟨⟨⟨⟨h1, h2⟩, -⟩, -⟩, h5⟩ := h
  exact ⟨h5, by simp [isMark, h1, h2]⟩

theorem plain_of_inert {t : Text} (h : t.inert = true) : ∀ c ∈ t, c ≠ '%' ∧ isMark c = false := by
  intro c hc
  have hchar := List.all_eq_true.mp h c hc
  simp only [Bool.and_eq_true, bne_iff_ne] at hchar
  exact ⟨hchar.1.1, by simp [isMark, hchar.1.2, hchar.2]⟩

/-! ## Two fragments of one layout -/

/-- Two fragments of one layout, the second one with its strings blanked. -/
def Segmented (f g : Fragment) : Prop :=
  ∃ as, Layout as ∧ f = write as ∧ g = write (as.map Segment.blanked)

namespace Segmented

variable {f f' g g' : Fragment}

theorem empty : Segmented .empty .empty := ⟨[], .nil, rfl, rfl⟩

/-- Characters in front. -/
theorem chars_append {t : Text} (ht : ∀ c ∈ t, c ≠ '%' ∧ isMark c = false) (h : Segmented f g) :
    Segmented (ofText t ++ f) (ofText t ++ g) := by
  obtain ⟨as, has, rfl, rfl⟩ := h
  have hchars : write (t.map .plain) = ofText t := by
    simp [write, Segment.sql, Segment.bindings, List.flatMap_map, ofText]
  have hblanked : (t.map Segment.plain).map Segment.blanked = t.map .plain := by
    simp [Segment.blanked]
  refine ⟨t.map .plain ++ as, has.chars_append ht, ?_, ?_⟩
  · rw [Segment.write_append, hchars]
  · rw [List.map_append, hblanked, Segment.write_append, hchars]

theorem chars {t : Text} (ht : ∀ c ∈ t, c ≠ '%' ∧ isMark c = false) :
    Segmented (ofText t) (ofText t) := by
  have h := chars_append ht .empty
  rwa [Fragment.append_empty] at h

theorem append (hf : Segmented f f') (hg : Segmented g g') (hl : g.sql.leads = true) :
    Segmented (f ++ g) (f' ++ g') := by
  obtain ⟨as, has, rfl, rfl⟩ := hf
  obtain ⟨bs, hbs, rfl, rfl⟩ := hg
  refine ⟨as ++ bs, has.append hbs hl, (Segment.write_append as bs).symm, ?_⟩
  rw [List.map_append, Segment.write_append]

theorem trim (h : Segmented f g) : Segmented f.trim g.trim := by
  obtain ⟨as, has, rfl, rfl⟩ := h
  refine ⟨Text.trimAtoms Segment.isPad as, has.trim, Layout.trim_write as, ?_⟩
  have hpad : Segment.isPad ∘ Segment.blanked = Segment.isPad := funext Segment.isPad_blanked
  rw [Layout.trim_write, Text.trimAtoms_map, hpad]

theorem isEmpty_eq (h : Segmented f g) : f.sql.isEmpty = g.sql.isEmpty := by
  obtain ⟨as, -, rfl, rfl⟩ := h
  rw [Bool.eq_iff_iff, List.isEmpty_iff, List.isEmpty_iff, Layout.sql_write_eq_nil,
    Layout.sql_write_eq_nil, List.map_eq_nil_iff]

/-- One segment is a layout. -/
theorem single {a : Segment} (h : a.Valid) : Segmented (write [a]) (write [a.blanked]) :=
  ⟨[a], ⟨by simpa using h, .singleton a⟩, rfl, rfl⟩

end Segmented

/-! ### Names and selectors -/

theorem Segmented.word {t : Text} (h : t.Clean) : Segmented (ofText t) (ofText t) :=
  .chars fun c hc => plain_of_isClean (h c hc)

variable {p : TablePrefix}

theorem TablePrefix.clean_table (hp : p.Clean) {name : Text} (h : name.Clean) :
    (p.table name).Clean :=
  fun c hc => (mem_table hc).elim (fun ⟨t, ht, hm⟩ => hp t ht c hm) (h c)

theorem TablePrefix.clean_field (hp : p.Clean) {name : Text} (h : name.Clean) :
    (p.field name).Clean :=
  fun c hc => (mem_field hc).elim (fun ⟨t, ht, hm⟩ => hp t ht c hm) (h c)

theorem Selector.clean_path {s : Selector} (h : ∀ node ∈ s.nodes, node.Clean) :
    ∀ c ∈ s.path, c ≠ '%' ∧ c ≠ '\x22' ∧ c ≠ '\\' := by
  have hclean : ∀ c, isClean c = true → c ≠ '%' ∧ c ≠ '\x22' ∧ c ≠ '\\' := by
    intro c hc
    simp only [isClean, Bool.and_eq_true, bne_iff_ne] at hc
    exact ⟨hc.2, hc.1.1.1.2, hc.1.1.2⟩
  intro c hc
  refine hclean c ?_
  rcases List.mem_append.mp hc with hc | hc
  · have hroot : Text.Clean "$." := by decide
    exact hroot c hc
  · rcases Text.mem_joined hc with hc | ⟨node, hnode, hc⟩
    · obtain rfl : c = '.' := by simpa using hc
      decide
    · exact h node hnode c hc

/-- A path of a JSON value is the one text the compiler puts in quotes. -/
theorem Selector.expression_eq (p : TablePrefix) (s : Selector) :
    s.expression p = "JSON_UNQUOTE(".toList ++ ("JSON_EXTRACT(".toList ++ (p.field s.column ++
      (", ".toList ++ ('\x22' :: s.path ++ ['\x22'] ++ "))".toList)))) := by
  have hopen : ", \"".toList = ", ".toList ++ ['\x22'] := rfl
  have hclose : "\")".toList ++ ")".toList = ['\x22'] ++ "))".toList := rfl
  unfold expression extract
  rw [hopen]
  simp only [List.append_assoc, List.cons_append, List.nil_append, hclose]

theorem Segmented.selector (hp : p.Clean) {s : Selector} (hc : s.column.Clean)
    (hn : ∀ node ∈ s.nodes, node.Clean) :
    Segmented (ofText (s.expression p)) (ofText (s.expression p)) := by
  have hpath : Segmented (ofText ('\x22' :: s.path ++ ['\x22']))
      (ofText ('\x22' :: s.path ++ ['\x22'])) := by
    have hsingle := Segmented.single (a := .path s.path) (Selector.clean_path hn)
    simpa [write, Segment.sql, Segment.bindings, Segment.blanked, ofText] using hsingle
  have hclosed := hpath.append (.chars (t := "))") (plain_of_inert rfl)) rfl
  have hfield := (hclosed.chars_append (t := ", ") (plain_of_inert rfl)).chars_append
    fun c hm => plain_of_isClean (TablePrefix.clean_field hp hc c hm)
  rw [Selector.expression_eq]
  exact (hfield.chars_append (t := "JSON_EXTRACT(") (plain_of_inert rfl)).chars_append
    (t := "JSON_UNQUOTE(") (plain_of_inert rfl)

/-! ### Raw SQL -/

/-- The segments of raw SQL with its bindings put in. -/
def Segment.ofPieces : List Piece → List Binding → List Segment
  | [], _ => []
  | .char c :: ps, bs => .plain c :: ofPieces ps bs
  | .percent :: ps, bs => ofPieces ps bs
  | .token _ :: ps, b :: bs => .baked b :: ofPieces ps bs
  | .token _ :: ps, [] => ofPieces ps []

namespace Segment

theorem ofPieces_blanked (ps : List Piece) (bs : List Binding) :
    (ofPieces ps bs).map blanked = ofPieces ps (bs.map Binding.blanked) := by
  fun_induction ofPieces ps bs <;> simp_all [ofPieces, blanked]

theorem sql_ofPieces {ps : List Piece} {bs : List Binding} (hps : ∀ x ∈ ps, x.Clean)
    (hbs : (ps.filterMap Piece.token?).length ≤ bs.length) :
    (ofPieces ps bs).flatMap sql = fill .doubled ps bs := by
  induction ps generalizing bs with
  | nil => rfl
  | cons x ps ih =>
    have hrest : ∀ y ∈ ps, y.Clean := fun y hy => hps y (by simp [hy])
    cases x with
    | char c => rw [ofPieces, List.flatMap_cons, ih hrest hbs, fill, sql]; rfl
    | percent => exact (hps .percent (by simp)).elim
    | token p =>
      cases bs with
      | nil => simp at hbs
      | cons b bs => rw [ofPieces, List.flatMap_cons, ih hrest (by simpa using hbs), fill, sql]

theorem bindings_ofPieces (ps : List Piece) (bs : List Binding) :
    (ofPieces ps bs).flatMap bindings = [] := by
  fun_induction ofPieces ps bs <;> simp_all [bindings]

/-- The segments are those of the filled text. -/
theorem write_ofPieces {ps : List Piece} {bs : List Binding} (hps : ∀ x ∈ ps, x.Clean)
    (hbs : (ps.filterMap Piece.token?).length ≤ bs.length) :
    write (ofPieces ps bs) = ofText (fill .doubled ps bs) := by
  rw [write, sql_ofPieces hps hbs, bindings_ofPieces, ofText]

theorem layout_ofPieces {ps : List Piece} {bs : List Binding} (hps : ∀ x ∈ ps, x.Clean)
    (h : ps.IsChain fun x y => x.token? = none ∨ y.token? = none) : Layout (ofPieces ps bs) := by
  induction ps generalizing bs with
  | nil => exact .nil
  | cons x ps ih =>
    obtain ⟨hhead, htail⟩ := List.isChain_cons.mp h
    have hrest : ∀ bs, Layout (ofPieces ps bs) :=
      fun bs => ih (fun y hy => hps y (by simp [hy])) htail
    cases x with
    | char c =>
      refine ⟨fun a ha => ?_, List.isChain_cons.mpr ⟨fun _ _ => .inl rfl, (hrest bs).apart⟩⟩
      rcases List.mem_cons.mp ha with rfl | ha
      · exact plain_of_isClean (hps (.char c) (by simp))
      · exact (hrest bs).valid a ha
    | percent => exact hrest bs
    | token p =>
      cases bs with
      | nil => exact hrest []
      | cons b bs =>
        refine ⟨fun a ha => ?_, List.isChain_cons.mpr ⟨fun a ha => .inr ?_, (hrest bs).apart⟩⟩
        · rcases List.mem_cons.mp ha with rfl | ha
          · trivial
          · exact (hrest bs).valid a ha
        · -- what stands behind a placeholder is a character
          cases ps with
          | nil => cases ha
          | cons y ps =>
            have hy : y.token? = none := by simpa using hhead y rfl
            cases y with
            | char c =>
              obtain rfl : Segment.plain c = a := by simpa [ofPieces] using ha
              rfl
            | percent => exact (hps .percent (by simp)).elim
            | token q => cases hy

end Segment

theorem Segmented.raw {f : Fragment} (h : f.Clean) :
    Segmented (ofText f.inlined) (ofText f.blanked.inlined) := by
  have hlength : (f.bindings.map Binding.blanked).length = f.bindings.length := List.length_map _
  refine ⟨Segment.ofPieces (scan f.sql) f.bindings,
    Segment.layout_ofPieces h.pieces h.separated, ?_, ?_⟩
  · rw [Fragment.inlined_eq, Segment.write_ofPieces h.pieces h.filled]
  · rw [Fragment.inlined_eq, Segment.ofPieces_blanked,
      Segment.write_ofPieces h.pieces (hlength.symm ▸ h.filled)]
    rfl

/-! ### Columns and values -/

theorem Segmented.column (hp : p.Clean) {c : Column} (h : c.Clean) :
    Segmented (ofText (c.text p)) (ofText ((c.edited .blanking).text p)) := by
  cases c with
  | name t =>
    cases hs : Selector.parse t with
    | ok s =>
      simp only [Column.edited, Column.text, hs]
      exact .selector hp (fun c hc => h c ((Selector.mem_of_parse hs).1 hc))
        fun node hn c hc => h c ((Selector.mem_of_parse hs).2 node hn hc)
    | error e =>
      simp only [Column.edited, Column.text, hs]
      exact .word (TablePrefix.clean_field hp h)
  | raw f => exact .raw h
  | json s => exact .selector hp h.1 h.2

theorem Segmented.bound (b : Binding) :
    Segmented (Value.bound b).fragment (Value.bound b.blanked).fragment := by
  rw [Value.fragment_bound, Value.fragment_bound, b.isSqlNull_blanked]
  cases hn : b.isSqlNull with
  | true => exact .chars (plain_of_inert rfl)
  | false =>
    have hslot := Segmented.single (a := .slot b) hn
    simpa [write, Segment.sql, Segment.bindings, Segment.blanked, Fragment.ofBinding] using hslot

theorem Segmented.value {v : Value} (h : v.Clean) : Segmented v.fragment v.blanked.fragment := by
  cases v with
  | raw f => exact .raw h
  | bound b => exact .bound b
  | plain s =>
    cases s with
    | null => exact .chars (plain_of_inert rfl)
    | string t => exact .bound ⟨.string t, .string⟩
    | bool b => exact .bound ⟨.bool b, .bool⟩
    | int i => exact .bound ⟨.int i, .int⟩
    | float x => exact .bound ⟨.float x, .float⟩
    | json v => exact .bound ⟨.json v, .json⟩

/-- Statements and the same statements with their strings blanked are written
from one layout. -/
theorem Segmented.congruence (hp : p.Clean) :
    Congruence p .clean .blanking Segmented (fun _ _ => True) where
  empty := .empty
  opening hs h := h.chars_append (plain_of_inert hs)
  append hf hg hl _ := hf.append hg hl
  trim h := h.trim
  isEmpty_eq h := h.isEmpty_eq
  word h := .word h
  table h := .word (TablePrefix.clean_table hp h)
  column h := .column hp h
  raw h := .raw h
  value h := .value h
  error_refl _ := trivial
  error _ := trivial

/-! ## What a database makes of it -/

/-- A lexeme, and what is left of it once strings are blanked: the same, or a
literal in single quotes without what it holds. -/
def Lexeme.Blanks (l l' : Lexeme) : Prop :=
  l = l' ∨ ∃ t, l = .quoted '\x27' t ∧ l' = .quoted '\x27' []

/-- Lexemes that differ in what a literal in single quotes holds, if at all. -/
def Lexeme.SameShape (l l' : Lexeme) : Prop :=
  l = l' ∨ ∃ t t', l = .quoted '\x27' t ∧ l' = .quoted '\x27' t'

theorem Lexeme.Blanks.sameShape {l l' m : Lexeme} (h : l.Blanks m) (h' : l'.Blanks m) :
    l.SameShape l' := by
  rcases h with rfl | ⟨t, rfl, rfl⟩ <;> rcases h' with rfl | ⟨t', rfl, hm⟩
  · exact .inl rfl
  · exact .inr ⟨[], t', hm, rfl⟩
  · exact .inr ⟨t, [], rfl, rfl⟩
  · exact .inr ⟨t, t', rfl, rfl⟩

/-- Lexemes that are the same once strings are blanked have the same shapes. -/
theorem Lexeme.sameShape_of_blanks {ls ls' ms : List Lexeme} (h : Forall₂ Blanks ls ms)
    (h' : Forall₂ Blanks ls' ms) : Forall₂ SameShape ls ls' := by
  induction h generalizing ls' with
  | nil =>
    obtain rfl := List.forall₂_nil_right_iff.mp h'
    exact .nil
  | cons hl _ ih =>
    obtain ⟨l', rest', hl', hrest', rfl⟩ := List.forall₂_cons_right_iff.mp h'
    exact .cons (hl.sameShape hl') (ih hrest')

theorem Binding.lexemes_blanks (b : Binding) :
    Forall₂ Lexeme.Blanks b.lexemes b.blanked.lexemes := by
  rcases b.blanked_cases with ⟨t, rfl, h⟩ | h <;> rw [h]
  · rw [lexemes_of_text rfl (.inl rfl), lexemes_of_text rfl (.inl rfl)]
    exact .cons (.inr ⟨t, rfl, rfl⟩) .nil
  · exact List.forall₂_same.mpr fun _ _ => .inl rfl

theorem Segment.lexemes_blanks (as : List Segment) :
    Forall₂ Lexeme.Blanks (as.flatMap lexemes) ((as.map blanked).flatMap lexemes) := by
  induction as with
  | nil => exact .nil
  | cons a as ih =>
    rw [List.flatMap_cons, List.map_cons, List.flatMap_cons]
    refine List.rel_append ?_ ih
    cases a with
    | plain | path => exact .cons (.inl rfl) .nil
    | baked b | slot b => exact b.lexemes_blanks

theorem Segmented.lexemes {f g : Fragment} (h : Segmented f g) :
    Forall₂ Lexeme.Blanks (Text.lexemes f.rendered) (Text.lexemes g.rendered) := by
  obtain ⟨as, has, rfl, rfl⟩ := h
  rw [has.lexemes_rendered, has.blanked.lexemes_rendered]
  exact Segment.lexemes_blanks as

/-- What is sent is split as the text with placeholders is, with one literal for
each of these. -/
theorem Segmented.plug {f g : Fragment} (h : Segmented f g) :
    Text.lexemes f.rendered =
        Lexeme.plug (Piece.lexemes (scan f.sql)) (f.bindings.map Binding.lexemes) ∧
      (Piece.lexemes (scan f.sql)).filterMap Lexeme.hole? = f.bindings.map Binding.placeholder ∧
      (∀ b ∈ f.bindings, b.isSqlNull = false) ∧
      ∀ l ∈ Text.lexemes f.rendered, l.isClosed = true := by
  obtain ⟨as, has, rfl, -⟩ := h
  rw [has.lexemes_rendered, has.lexemes_sql]
  refine ⟨(Segment.plug_outline as).symm, Segment.holes_outline as, fun b hb => ?_, fun l hl => ?_⟩
  · obtain ⟨a, ha, hba⟩ := List.mem_flatMap.mp hb
    cases a with
    | plain | path | baked => simp [Segment.bindings] at hba
    | slot c =>
      obtain rfl : b = c := by simpa [Segment.bindings] using hba
      exact has.valid _ ha
  · obtain ⟨a, -, hla⟩ := List.mem_flatMap.mp hl
    exact a.isClosed_lexemes l hla

namespace Statements

variable {st : Statements} {task : Task}

/-- **What a bound string holds stays inside of its literal.** Take statements in
which quotes, backslashes and percent signs come from bindings only. The SQL a
database receives for them is split into the lexemes of the text with
placeholders, with one literal for each placeholder: the text of the binding in
quotes, or characters without a quote; and every literal is closed. With their
strings blanked, the statements compile if they do, to the same lexemes but for
strings that are blank. So statements that differ in what their strings hold
only are split the same way. -/
theorem strings_contained (hp : p.Clean) (h : st.Obeys .clean) (ht : task.Obeys .clean) :
    (∀ q, st.run p task = .ok q →
      Text.lexemes q.rendered =
          Lexeme.plug (Piece.lexemes (scan q.sql)) (q.bindings.map Binding.lexemes) ∧
        (Piece.lexemes (scan q.sql)).filterMap Lexeme.hole? = q.bindings.map Binding.placeholder ∧
        (∀ b ∈ q.bindings, b.IsText → b.lexemes = [.quoted '\x27' b.value.text]) ∧
        (∀ b ∈ q.bindings, ¬b.IsText →
          b.lexemes = b.literal.map .char ∧ ∀ c ∈ b.literal, isMark c = false) ∧
        ∀ l ∈ Text.lexemes q.rendered, l.isClosed = true) ∧
    AlikeBy (fun _ _ => True)
      (fun q r => Forall₂ Lexeme.Blanks (Text.lexemes q.rendered) (Text.lexemes r.rendered))
      (st.run p task) ((st.edited .blanking).run p (task.edited .blanking)) ∧
    ∀ (st' : Statements) (task' : Task), st'.Obeys .clean → task'.Obeys .clean →
      st'.edited .blanking = st.edited .blanking → task'.edited .blanking = task.edited .blanking →
      AlikeBy (fun _ _ => True)
        (fun q q' => Forall₂ Lexeme.SameShape (Text.lexemes q.rendered) (Text.lexemes q'.rendered))
        (st.run p task) (st'.run p task') := by
  have hwalk := (Segmented.congruence hp).run h ht
  refine ⟨fun q hq => ?_, hwalk.mono fun q r _ hqr => hqr.text.lexemes, ?_⟩
  · obtain ⟨r, -, hqr⟩ := hwalk.of_ok hq
    obtain ⟨hplug, hholes, hbound, hclosed⟩ := hqr.text.plug
    exact ⟨hplug, hholes, fun b hb => b.lexemes_of_text (hbound b hb),
      fun b _ hn => b.lexemes_of_not_text fun hb => hn hb.2, hclosed⟩
  · intro st' task' h' ht' hst htask
    have hwalk' := (Segmented.congruence hp).run h' ht'
    rw [hst, htask] at hwalk'
    exact (hwalk.meet hwalk').mono fun q q' _ ⟨r, hq, hq'⟩ =>
      Lexeme.sameShape_of_blanks hq.text.lexemes hq'.text.lexemes

/-- Statements that take one text as an operand and another one into raw SQL. -/
def holding (t u : Text) : Statements where
  tables := [⟨.named "users", none⟩]
  selects := [⟨.json ⟨"data", ["name"]⟩, some "n"⟩]
  filters := [
    .leaf .and .filter (.compare (.name "login") "=" (.plain (.string t))),
    .leaf .or .filter (.literal
      ⟨"note = %s AND age > %d", [⟨.string u, .string⟩, ⟨.int 5, .int⟩]⟩)]

theorem strings_contained_sample :
    let p : TablePrefix := ⟨some "app_".toList⟩
    let st := holding "it's \\" "%s' OR '1'='1"
    let st' := holding "x" ""
    let sent := ("SELECT JSON_UNQUOTE(JSON_EXTRACT(data, \"$.name\")) AS n FROM app_users " ++
      "WHERE login = 'it\\'s \\\\' OR note = '%s\\' OR \\'1\\'=\\'1' AND age > 5").toList
    p.Clean ∧ st.Obeys .clean ∧ ∃ q q' : Query,
      st.run p .select = .ok q ∧ st'.run p .select = .ok q' ∧ q.rendered = sent ∧
      (∀ l ∈ Text.lexemes q.rendered, l.isClosed = true) ∧
      Lexeme.quoted '\x27' "it's \\" ∈ Text.lexemes q.rendered ∧
      Lexeme.quoted '\x27' "%s' OR '1'='1" ∈ Text.lexemes q.rendered ∧
      Forall₂ Lexeme.SameShape (Text.lexemes q.rendered) (Text.lexemes q'.rendered) := by
  intro p st st' sent
  have hp : p.Clean := by decide
  have h : st.Obeys .clean := by decide +kernel
  have h' : st'.Obeys .clean := by decide +kernel
  have ht : Task.select.Obeys .clean := trivial
  obtain ⟨hread, -, hboth⟩ := strings_contained hp h ht
  obtain ⟨q, hq⟩ : ∃ q, st.run p .select = .ok q := ⟨_, rfl⟩
  obtain ⟨q', hq', hshape⟩ := (hboth st' .select h' ht rfl rfl).of_ok hq
  obtain ⟨-, -, -, -, hclosed⟩ := hread q hq
  have hsent : (st.run p .select).map Query.rendered = .ok sent := by decide +kernel
  rw [hq] at hsent
  have htext := Except.ok.inj hsent
  refine ⟨hp, h, q, q', hq, hq', htext, hclosed, ?_, ?_, hshape⟩
  · rw [htext]
    decide +kernel
  · rw [htext]
    decide +kernel

end Statements

end BoundSql
