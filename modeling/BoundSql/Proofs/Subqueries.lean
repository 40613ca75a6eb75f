/-
A query inside of other queries is there as its own SQL, however deep.

Where a query stands inside another one, its bindings have become literals with
their percent signs doubled, and each query around it cuts that text into
pieces again. The invariant that carries over a level is `Query.Enclosing`: both
queries are one `Frame` around what is sent for the queries inside of them.
`Query.Enclosing.compiled` is the step from one level to the next.
-/
import BoundSql.Proofs.Bindings
import BoundSql.Proofs.Congruence
import BoundSql.Proofs.Occurrence
import BoundSql.Proofs.Splice

namespace BoundSql

open Fragment (ofText)
open Text (Snug)

/-! ## Text with holes -/

/-- Text with holes in it, for one text to stand in all of them. -/
abbrev Frame := List (Option Char)

namespace Frame

def ofText (t : Text) : Frame := t.map some

def fill (k : Frame) (u : Text) : Text := k.flatMap fun a => a.elim u fun c => [c]

/-- A frame with another one in its holes. -/
def plug (k inner : Frame) : Frame := k.flatMap fun a => a.elim inner fun c => [some c]

variable {u : Text} {k : Frame}

@[simp] theorem fill_ofText (t u : Text) : fill (ofText t) u = t := by
  simp [fill, ofText, List.flatMap_map]

@[simp] theorem fill_hole (u : Text) : fill [none] u = u := by simp [fill]

theorem fill_append (k l : Frame) (u : Text) : fill (k ++ l) u = fill k u ++ fill l u :=
  List.flatMap_append

theorem fill_plug (k inner : Frame) (u : Text) : fill (plug k inner) u = fill k (fill inner u) := by
  induction k with
  | nil => rfl
  | cons a k ih =>
    cases a with
    | none => rw [plug, List.flatMap_cons, fill_append, ← plug, ih]; rfl
    | some c => rw [plug, List.flatMap_cons, fill_append, ← plug, ih]; rfl

theorem fill_eq_nil (hu : u ≠ []) : fill k u = [] ↔ k = [] := by
  cases k with
  | nil => simp [fill]
  | cons a k => cases a <;> simp [fill, hu]

/-- Blanks at the ends of a frame are cut off, whatever stands in its holes. -/
theorem trim_fill (hu : u ≠ []) (hs : Snug u) (k : Frame) :
    Text.trim (fill k u) = fill (Text.trimAtoms (fun a => a.any Text.isBlank) k) u := by
  refine Text.trim_flatMap (fun a ha => ?_) (fun a ha => ?_) k
  · cases a with
    | none => cases ha
    | some c => simpa [Text.blank] using ha
  · cases a with
    | none => exact ⟨hu, hs⟩
    | some c => exact ⟨by simp, .of_forall (by simpa using ha)⟩

end Frame

/-! ## Fragments with one frame -/

namespace Fragment

theorem rendered_trim (f : Fragment) : f.trim.rendered = Text.trim f.rendered := fill_trim _ _ _

theorem rendered_eq_nil {f : Fragment} : f.rendered = [] ↔ f.sql = [] := fill_eq_nil

theorem rendered_ofText {t : Text} (h : '%' ∉ t) : (ofText t).rendered = t := by
  have hfill := fill_append_chars .single [] [] t
  rw [rendered, sql_ofText, Piece.scan_of_not_mem h]
  exact hfill

end Fragment

/-- Aligned fragments that bind the same and are sent as one frame around two
texts. -/
structure Framed (u v : Text) (f g : Fragment) : Prop where
  left : f.Aligned
  right : g.Aligned
  bindings : g.bindings = f.bindings
  frame : ∃ k : Frame, f.rendered = k.fill u ∧ g.rendered = k.fill v

namespace Framed

variable {u v : Text} {f f' g g' : Fragment}

theorem refl (h : f.Aligned) : Framed u v f f :=
  ⟨h, h, rfl, .ofText f.rendered, by simp, by simp⟩

theorem append (hf : Framed u v f f') (hg : Framed u v g g') (hs : Seam f.sql g.sql)
    (hs' : Seam f'.sql g'.sql) : Framed u v (f ++ g) (f' ++ g') where
  left := hf.left.append hg.left hs
  right := hf.right.append hg.right hs'
  bindings := by
    rw [Fragment.bindings_append, Fragment.bindings_append, hf.bindings, hg.bindings]
  frame := by
    obtain ⟨k, hk, hk'⟩ := hf.frame
    obtain ⟨l, hl, hl'⟩ := hg.frame
    refine ⟨k ++ l, ?_, ?_⟩
    · rw [hf.left.matched.rendered_append hs, Frame.fill_append, hk, hl]
    · rw [hf.right.matched.rendered_append hs', Frame.fill_append, hk', hl']

theorem trim (hu : u ≠ [] ∧ Snug u) (hv : v ≠ [] ∧ Snug v) (h : Framed u v f g) :
    Framed u v f.trim g.trim where
  left := h.left.trim
  right := h.right.trim
  bindings := h.bindings
  frame := by
    obtain ⟨k, hk, hk'⟩ := h.frame
    refine ⟨Text.trimAtoms (fun a => a.any Text.isBlank) k, ?_, ?_⟩
    · rw [Fragment.rendered_trim, hk, Frame.trim_fill hu.1 hu.2]
    · rw [Fragment.rendered_trim, hk', Frame.trim_fill hv.1 hv.2]

theorem isEmpty_eq (hu : u ≠ []) (hv : v ≠ []) (h : Framed u v f g) :
    f.sql.isEmpty = g.sql.isEmpty := by
  obtain ⟨k, hk, hk'⟩ := h.frame
  rw [Bool.eq_iff_iff, List.isEmpty_iff, List.isEmpty_iff, ← Fragment.rendered_eq_nil,
    ← Fragment.rendered_eq_nil, hk, hk', Frame.fill_eq_nil hu, Frame.fill_eq_nil hv]

end Framed

/-! ## Queries as raw SQL -/

namespace Query

variable {q r : Query} {asName : Text}

/-- The query with its bindings already in it, as text with no binding. -/
def flat (q : Query) : Query := ⟨ofText (Percent.doubled.literal q.rendered), q.kind⟩

theorem subquery_eq (q : Query) (asName : Text) :
    q.subquery asName = ofText "(" ++ q.text ++ ofText (") AS " ++ asName) := by
  change Fragment.mk _ _ = Fragment.append (Fragment.append _ _) _
  simp [Fragment.append, sql, bindings]

theorem seam_closing (t asName : Text) : Seam t (") AS ".toList ++ asName) := .of_attaches rfl

theorem matched_subquery (h : q.text.Matched) (ha : '%' ∉ asName) :
    (q.subquery asName).Matched := by
  have hopening : (ofText "(").Matched := .ofText rfl
  have hclosing : '%' ∉ ") AS ".toList ++ asName := by simp [ha]
  rw [subquery_eq]
  exact (hopening.append h (.of_not_mem _ (by decide))).append
    (.ofText (placeholders_of_not_mem hclosing)) (seam_closing _ asName)

theorem rendered_subquery (h : q.text.Matched) (ha : '%' ∉ asName) :
    (q.subquery asName).rendered = q.rendered.parenthesized ++ (" AS " ++ asName) := by
  have hopening : (ofText "(").Matched := .ofText rfl
  have hboth := hopening.append h (.of_not_mem q.text.sql (by decide))
  have hclosing : '%' ∉ ") AS ".toList ++ asName := by simp [ha]
  rw [subquery_eq, hboth.rendered_append (seam_closing _ asName),
    hopening.rendered_append (.of_not_mem _ (by decide)), Fragment.rendered_ofText hclosing,
    Fragment.rendered_ofText (by decide), Text.parenthesized, Query.rendered]
  simp

end Query

/-! ## Putting one query in place of another -/

open Classical in
/-- One piece of raw SQL in place of another, wherever that stands. -/
noncomputable def Fragment.replacing (f g h : Fragment) : Fragment := if h = f then g else h

/-- One piece of raw SQL in place of another, in all of the statements. -/
noncomputable def Edit.replacing (f g : Fragment) : Edit where
  raw := Fragment.replacing f g
  value
    | .raw h => .raw (Fragment.replacing f g h)
    | v => v

section Step

variable {p : TablePrefix} {q r : Query} {asName : Text}

theorem Framed.subquery (hq : q.text.Matched) (hr : r.text.Matched) (ha : '%' ∉ asName) :
    Framed q.rendered.parenthesized r.rendered.parenthesized
      (ofText (q.subquery asName).inlined) (ofText (r.subquery asName).inlined) where
  left := .ofText (Query.matched_subquery hq ha).filled.placeholders_inlined
  right := .ofText (Query.matched_subquery hr ha).filled.placeholders_inlined
  bindings := rfl
  frame := by
    refine ⟨[none] ++ Frame.ofText (" AS " ++ asName), ?_, ?_⟩
    · rw [Fragment.rendered_inlined, Query.rendered_subquery hq ha, Frame.fill_append,
        Frame.fill_ofText, Frame.fill_hole]
    · rw [Fragment.rendered_inlined, Query.rendered_subquery hr ha, Frame.fill_append,
        Frame.fill_ofText, Frame.fill_hole]

theorem Framed.raw (hq : q.text.Matched) (hr : r.text.Matched) (ha : '%' ∉ asName) {f : Fragment}
    (hf : f.Filled) :
    Framed q.rendered.parenthesized r.rendered.parenthesized (ofText f.inlined)
      (ofText (Fragment.replacing (q.subquery asName) (r.subquery asName) f).inlined) := by
  unfold Fragment.replacing
  split
  next h =>
    rw [h]
    exact .subquery hq hr ha
  next => exact .refl (.ofText hf.placeholders_inlined)

/-- Two queries in the same place leave one frame around them. -/
theorem Framed.congruence (hp : p.Tidy) (hq : q.text.Matched) (hr : r.text.Matched)
    (ha : '%' ∉ asName) :
    Congruence p .tidy (.replacing (q.subquery asName) (r.subquery asName))
      (Framed q.rendered.parenthesized r.rendered.parenthesized) (fun _ _ => True) where
  empty := .refl (.ofText rfl)
  opening hs h :=
    have hmem := Text.not_mem_of_inert hs
    (Framed.refl (.ofText (placeholders_of_not_mem hmem))).append h (.of_not_mem _ hmem)
      (.of_not_mem _ hmem)
  append hf hg hl hl' :=
    hf.append hg (.of_attaches (Text.attaches_of_leads hl))
      (.of_attaches (Text.attaches_of_leads hl'))
  trim h := h.trim ⟨Text.parenthesized_ne_nil _, Text.snug_parenthesized _⟩
    ⟨Text.parenthesized_ne_nil _, Text.snug_parenthesized _⟩
  isEmpty_eq h := h.isEmpty_eq (Text.parenthesized_ne_nil _) (Text.parenthesized_ne_nil _)
  word h := .refl (.ofText (placeholders_of_not_mem h))
  table h := .refl (.ofText (placeholders_of_not_mem (TablePrefix.not_mem_table hp h)))
  column {c} h := by
    cases c with
    | name | json => exact .refl (.ofText (Column.placeholders_text hp h))
    | raw f => exact .raw hq hr ha h
  raw h := .raw hq hr ha h
  value {v} h := by
    cases v with
    | raw f => exact .raw hq hr ha h
    | bound b => exact .refl (Value.spliced_fragment (v := .bound b) trivial).aligned
    | plain s => exact .refl (Value.spliced_fragment (v := .plain s) trivial).aligned
  error_refl _ := trivial
  error _ := trivial

end Step

/-! ## Levels -/

/-- Statements around a query: what is asked of them, and the name the query has
among them. -/
structure Outer where
  tablePrefix : TablePrefix
  statements : Statements
  task : Task
  asName : Text

namespace Outer

def compiled (o : Outer) : Except Error Query := o.statements.run o.tablePrefix o.task

/-- The bindings of the operands of the statements. -/
def bindings (o : Outer) : List Binding := o.task.bindings o.statements

/-- The statements with one query in place of another. -/
noncomputable def replacing (o : Outer) (q r : Query) : Outer :=
  let e := Edit.replacing (q.subquery o.asName) (r.subquery o.asName)
  { o with statements := o.statements.edited e, task := o.task.edited e }

structure Tidy (o : Outer) : Prop where
  tablePrefix : o.tablePrefix.Tidy
  statements : o.statements.Tidy
  task : o.task.Obeys .tidy
  asName : '%' ∉ o.asName

end Outer

/-- The queries `q` and `r` come from the same statements, one around the other,
but that `q` has `i` at the innermost place and `r` has `j` there. -/
inductive BuiltAround (i j : Query) : Query → Query → Prop
  | self : BuiltAround i j i j
  | outer {q r q' r' : Query} {o : Outer} : BuiltAround i j q r → o.Tidy → o.compiled = .ok q' →
      (o.replacing q r).compiled = .ok r' → BuiltAround i j q' r'

/-- Queries with a binding for each placeholder that are sent as one frame around
what two other queries are sent as. -/
structure Query.Enclosing (i j q r : Query) : Prop where
  left : q.text.Matched
  right : r.text.Matched
  frame : ∃ k : Frame, q.rendered = k.fill i.rendered ∧ r.rendered = k.fill j.rendered

theorem Statements.run_bindings {p : TablePrefix} {st : Statements} {task : Task} {q : Query}
    (h : st.run p task = .ok q) : q.bindings = task.bindings st := by
  cases task with
  | select =>
    simp only [Statements.run, Statements.select, Except.bind_ok_iff, Except.pure_ok_iff] at h
    obtain ⟨f, hf, rfl⟩ := h
    exact selectFragment_bindings hf
  | aggregate => exact aggregate_bindings h
  | insertRow => exact insertRow_bindings h
  | update => exact update_bindings h
  | delete => exact delete_bindings h

namespace Query.Enclosing

variable {i j q r : Query}

theorem of_framed {q' r' : Query} (h : Enclosing i j q r)
    (hf : Framed q.rendered.parenthesized r.rendered.parenthesized q'.text r'.text) :
    Enclosing i j q' r' where
  left := hf.left.matched
  right := hf.right.matched
  frame := by
    obtain ⟨k, hq, hr⟩ := h.frame
    obtain ⟨l, hq', hr'⟩ := hf.frame
    refine ⟨l.plug (Frame.ofText "(" ++ k ++ Frame.ofText ")"), ?_, ?_⟩
    · rw [Query.rendered, hq', Frame.fill_plug, Frame.fill_append, Frame.fill_append, ← hq,
        Frame.fill_ofText, Frame.fill_ofText, Text.parenthesized]
    · rw [Query.rendered, hr', Frame.fill_plug, Frame.fill_append, Frame.fill_append, ← hr,
        Frame.fill_ofText, Frame.fill_ofText, Text.parenthesized]

/-- One level: statements with one of two enclosing queries among them compile
as they do with the other, and the results enclose the same. -/
theorem compiled (h : Enclosing i j q r) {o : Outer} (ho : o.Tidy) :
    AlikeBy (fun _ _ => True)
      (fun a b => Enclosing i j a b ∧ a.text.Aligned ∧ a.bindings = o.bindings ∧
        b.bindings = a.bindings)
      o.compiled (o.replacing q r).compiled := by
  have hrun := (Framed.congruence ho.tablePrefix h.left h.right ho.asName).run ho.statements ho.task
  exact hrun.mono fun a b ha hab =>
    ⟨h.of_framed hab.text, hab.text.left, Statements.run_bindings ha, hab.text.bindings⟩

/-- All levels. -/
theorem of_builtAround (hi : i.text.Matched) (hj : j.text.Matched) (h : BuiltAround i j q r) :
    Enclosing i j q r := by
  induction h with
  | self => exact ⟨hi, hj, [none], by simp, by simp⟩
  | outer _ ho hq hr ih =>
    have hstep := ih.compiled ho
    rw [hq, hr] at hstep
    exact hstep.1

end Query.Enclosing

/-! ## What is sent -/

/-- Literals stand in filled text in the order of their placeholders. -/
theorem fill_inOrder {ps : List Piece} {bs : List Binding}
    (h : (ps.filterMap Piece.token?).length = bs.length) :
    Text.InOrder (bs.map Binding.literal) (fill .single ps bs) := by
  induction ps generalizing bs with
  | nil =>
    obtain rfl : bs = [] := by simpa using h.symm
    trivial
  | cons p ps ih =>
    cases p with
    | char c => exact (ih h).append_left [c]
    | percent => exact (ih h).append_left Percent.single.sign
    | token p =>
      cases bs with
      | nil => simp at h
      | cons b bs => exact ⟨[], fill .single ps bs, rfl, ih (by simpa using h)⟩

theorem Fragment.Matched.inOrder {f : Fragment} (h : f.Matched) :
    Text.InOrder (f.bindings.map Binding.literal) f.rendered := fill_inOrder h

theorem count_quoted (t : Text) : (quoted t).count '%' = t.count '%' := by
  have hchar : ∀ c, (quoteChar c).count '%' = [c].count '%' := by
    intro c
    unfold quoteChar
    split <;> rfl
  have hbody : (t.flatMap quoteChar).count '%' = t.count '%' := by
    induction t with
    | nil => rfl
    | cons c t ih => rw [List.flatMap_cons, List.count_append, hchar, ih, ← List.count_append]; rfl
  rw [quoted, List.cons_append, List.count_cons_of_ne (by decide), List.count_append, hbody]
  rfl

/-- A percent sign in a bound string is one percent sign in its literal. -/
theorem Binding.count_literal {b : Binding} (h : b.kind = .string) :
    b.literal.count '%' = b.value.text.count '%' := by
  unfold Binding.literal
  split
  next hnull =>
    have hvalue : b.value.isNull = true := by simpa [isSqlNull, h] using hnull
    cases hb : b.value <;> rw [hb] at hvalue <;> first | rfl | cases hvalue
  next => rw [h]; exact count_quoted _

namespace Query

variable {i : Query}

theorem scan_flat (i : Query) : Piece.scan i.flat.sql = i.rendered.map Piece.ofChar := by
  have hscan := scan_literal_append i.rendered []
  rw [List.append_nil] at hscan
  rw [flat, sql, Fragment.sql_ofText, hscan]
  exact List.append_nil _

theorem matched_flat (i : Query) : i.flat.text.Matched := by
  refine .ofText ?_
  change (Piece.scan i.flat.sql).filterMap Piece.token? = []
  rw [scan_flat, List.filterMap_map, List.filterMap_eq_nil_iff]
  exact fun c _ => token?_ofChar c

theorem rendered_flat (i : Query) : i.flat.rendered = i.rendered := by
  have hfill := fill_literal_append .single i.rendered [] []
  rw [List.append_nil] at hfill
  rw [rendered, Fragment.rendered, ← sql, scan_flat]
  exact hfill.trans (List.append_nil _)

/-- **A query inside of other queries is its own SQL.** Take a query with a
binding for each placeholder and statements around it, and statements around
those, any number of times. At every level, the statements compile to an aligned
query that binds what their own operands bind, and is sent as the one they
compile to with the SQL of the innermost query, percent signs doubled, in its
place. Any other query in that place leaves the text around it as it is. And
what is sent for the innermost query has the literals of its bindings in it, in
order, with each percent sign of a string there once. -/
theorem subqueries_as_sent (hi : i.text.Matched) :
    (∀ asName, i.flat.subquery asName =
      ofText ("(" ++ Percent.doubled.literal i.rendered ++ ") AS " ++ asName)) ∧
    (∀ (q r : Query) (o : Outer), BuiltAround i i.flat q r → o.Tidy →
      AlikeBy (fun _ _ => True)
        (fun a b => a.text.Aligned ∧ a.bindings = o.bindings ∧ b.bindings = o.bindings ∧
          b.rendered = a.rendered)
        o.compiled (o.replacing q r).compiled) ∧
    (∀ j q r : Query, j.text.Matched → BuiltAround i j q r →
      ∃ k : Frame, q.rendered = k.fill i.rendered ∧ r.rendered = k.fill j.rendered) ∧
    Text.InOrder (i.bindings.map Binding.literal) i.rendered ∧
    ∀ b ∈ i.bindings, b.kind = .string → b.literal.count '%' = b.value.text.count '%' := by
  refine ⟨fun _ => rfl, fun q r o h ho => ?_, fun j q r hj h => ?_, hi.inOrder,
    fun b _ hb => b.count_literal hb⟩
  · have hlevel := (Enclosing.of_builtAround hi i.matched_flat h).compiled ho
    refine hlevel.mono fun a b _ ⟨henclosing, haligned, hown, hsame⟩ =>
      ⟨haligned, hown, hsame.trans hown, ?_⟩
    obtain ⟨k, ha, hb⟩ := henclosing.frame
    rw [hb, ha, rendered_flat]
  · exact (Enclosing.of_builtAround hi hj h).frame

end Query

/-- Statements with a query for their table and a value with a percent sign. -/
def Outer.sample (q : Query) (asName : Text) : Outer where
  tablePrefix := {}
  statements :=
    { tables := [⟨.raw (q.subquery asName), none⟩]
      filters := [.leaf .and .filter (.compare (.name "x") "=" (.plain (.string "5%")))] }
  task := .select
  asName := asName

theorem Outer.sample_tidy {q : Query} (h : q.text.Matched) {asName : Text} (ha : '%' ∉ asName) :
    (sample q asName).Tidy where
  tablePrefix _ hp := by cases hp
  statements :=
    have hq := (Query.matched_subquery h ha).filled
    { tables := fun t ht => by
        obtain rfl := List.mem_singleton.mp ht
        exact ⟨hq, by simp⟩
      selects := by simp [sample]
      filters := by
        simp [sample, Criterion.Obeys, Criterion.allTests, Criterion.tests, Test.Obeys, Rules.tidy,
          Column.Tidy, Value.Tidy]
      havings := by simp [sample, Criterion.Obeys, Criterion.allTests]
      joins := by simp [sample]
      sortKeys := by simp [sample]
      groupings := by simp [sample]
      onDuplicate := by simp [sample, Row.Obeys] }
  task := trivial
  asName := ha

theorem Query.subqueries_as_sent_sample :
    let i : Query := ⟨⟨"SELECT * FROM a WHERE b LIKE %s", [⟨.string "%s%%", .string⟩]⟩, .select⟩
    i.text.Matched ∧ ∃ q r q' r' : Query,
      (Outer.sample i "t").compiled = .ok q ∧
      ((Outer.sample i "t").replacing i i.flat).compiled = .ok r ∧ r.rendered = q.rendered ∧
      (Outer.sample q "u").compiled = .ok q' ∧
      ((Outer.sample q "u").replacing q r).compiled = .ok r' ∧ r'.rendered = q'.rendered ∧
      q'.text.Aligned ∧ q'.rendered = ("SELECT * FROM (SELECT * FROM (SELECT * FROM a " ++
        "WHERE b LIKE '%s%%') AS t WHERE x = '5%') AS u WHERE x = '5%'").toList := by
  intro i
  have hi : i.text.Matched := rfl
  obtain ⟨-, hlevel, -⟩ := subqueries_as_sent hi
  have hinner : (Outer.sample i "t").Tidy := Outer.sample_tidy hi (by decide)
  obtain ⟨q, hq⟩ : ∃ q, (Outer.sample i "t").compiled = .ok q := ⟨_, rfl⟩
  obtain ⟨r, hr, haligned, -, -, hqr⟩ := (hlevel i i.flat _ .self hinner).of_ok hq
  have houter : (Outer.sample q "u").Tidy := Outer.sample_tidy haligned.matched (by decide)
  obtain ⟨q', hq'⟩ : ∃ q', (Outer.sample q "u").compiled = .ok q' := ⟨_, rfl⟩
  obtain ⟨r', hr', haligned', -, -, hqr'⟩ :=
    (hlevel q r _ (.outer .self hinner hq hr) houter).of_ok hq'
  refine ⟨hi, q, r, q', r', hq, hr, hqr, hq', hr', hqr', haligned', ?_⟩
  have hsent : ((Outer.sample i "t").compiled >>= fun q => (Outer.sample q "u").compiled).map
      Query.rendered = .ok ("SELECT * FROM (SELECT * FROM (SELECT * FROM a " ++
        "WHERE b LIKE '%s%%') AS t WHERE x = '5%') AS u WHERE x = '5%'").toList := by decide +kernel
  rw [hq] at hsent
  change (Outer.sample q "u").compiled.map Query.rendered = _ at hsent
  rw [hq'] at hsent
  exact Except.ok.inj hsent

end BoundSql
