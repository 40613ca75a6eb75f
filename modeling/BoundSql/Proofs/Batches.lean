/-
Rows inserted together.

A batch is checked as a whole before its first row is compiled, a single row by
itself. Both checks come to the same for a row: the flaws of a row are looked
for in a fixed order (`Row.Flaw`), and the first row with a flaw is what a batch
is refused for. The table is looked at only behind the rows, and a row that has
passed its check is always compiled. So a batch gives the queries of its single
rows, all of them or none.
-/
import BoundSql.Builder.Basic
import BoundSql.Proofs.ExceptFacts
import Mathlib.Data.List.Forall2

namespace BoundSql

open Fragment (ofText)

/-! ## Flaws of a row -/

/-- Why a row cannot be in a batch whose first row has the columns `keys`: it
has no columns, else a column with a blank name, of which the first one counts,
else other columns. -/
inductive Row.Flaw (keys : List Text) (row : Row) : Error → Prop where
  | empty (h : row = []) : Flaw keys row .noData
  | blankKey {before : Row} {entry : Text × Value} {after : Row} (h : row = before ++ entry :: after)
      (hbefore : ∀ other ∈ before, Text.blank other.1 = false) (hblank : Text.blank entry.1 = true) :
      Flaw keys row (.statement (.blankKey entry.1))
  | otherKeys (h : row ≠ []) (hblank : ∀ entry ∈ row, Text.blank entry.1 = false)
      (hkeys : row.keys ≠ keys) : Flaw keys row (.statement .differentKeys)

/-- A row without a flaw. -/
structure Row.Fits (keys : List Text) (row : Row) : Prop where
  ne_nil : row ≠ []
  not_blank : ∀ entry ∈ row, Text.blank entry.1 = false
  keys_eq : row.keys = keys

/-- The check of one row of a batch. -/
def Row.checkAs (keys : List Text) (row : Row) : Except Error Unit := do
  row.check
  if row.keys = keys then return else .error (.statement .differentKeys)

namespace Row

variable {keys : List Text} {row : Row} {e : Error}

theorem check_of_blankKey {before after : Row} {entry : Text × Value}
    (hbefore : ∀ other ∈ before, Text.blank other.1 = false) (hblank : Text.blank entry.1 = true) :
    check (before ++ entry :: after) = .error (.statement (.blankKey entry.1)) := by
  have hempty : (before ++ entry :: after).isEmpty = false := by simp
  have hfind : (before ++ entry :: after).find? (fun entry => Text.blank entry.1) = some entry := by
    refine List.find?_eq_some_iff_append.mpr ⟨hblank, before, after, rfl, fun other hother => ?_⟩
    simp [hbefore other hother]
  simp only [check, hempty, hfind]
  rfl

theorem check_of_not_blank (h : row ≠ []) (hblank : ∀ entry ∈ row, Text.blank entry.1 = false) :
    row.check = .ok () := by
  have hempty : row.isEmpty = false := by simpa using h
  have hfind : row.find? (fun entry => Text.blank entry.1) = none := by
    refine List.find?_eq_none.mpr fun entry hentry => ?_
    simp [hblank entry hentry]
  simp only [check, hempty, hfind]
  rfl

theorem checkAs_of_flaw (h : row.Flaw keys e) : row.checkAs keys = .error e := by
  cases h with
  | empty h =>
    subst h
    rfl
  | blankKey h hbefore hblank =>
    subst h
    rw [checkAs, check_of_blankKey hbefore hblank]
    rfl
  | otherKeys h hblank hkeys =>
    rw [checkAs, check_of_not_blank h hblank]
    exact if_neg hkeys

theorem checkAs_of_fits (h : row.Fits keys) : row.checkAs keys = .ok () := by
  rw [checkAs, check_of_not_blank h.ne_nil h.not_blank]
  exact if_pos h.keys_eq

/-- A row has a flaw or none. -/
theorem flaw_or_fits (keys : List Text) (row : Row) : (∃ e, row.Flaw keys e) ∨ row.Fits keys := by
  by_cases hempty : row = []
  · exact .inl ⟨_, .empty hempty⟩
  cases hfind : row.find? fun entry => Text.blank entry.1 with
  | some entry =>
    obtain ⟨hblank, before, after, hrow, hbefore⟩ := List.find?_eq_some_iff_append.mp hfind
    exact .inl ⟨_, .blankKey hrow (fun other hother => by simpa using hbefore other hother) hblank⟩
  | none =>
    have hblank : ∀ entry ∈ row, Text.blank entry.1 = false := fun entry hentry => by
      simpa using List.find?_eq_none.mp hfind entry hentry
    by_cases hkeys : row.keys = keys
    · exact .inr ⟨hempty, hblank, hkeys⟩
    · exact .inl ⟨_, .otherKeys hempty hblank hkeys⟩

theorem checkAs_eq_error : row.checkAs keys = .error e ↔ row.Flaw keys e := by
  refine ⟨fun h => ?_, checkAs_of_flaw⟩
  rcases flaw_or_fits keys row with ⟨e', hflaw⟩ | hfits
  · rw [checkAs_of_flaw hflaw] at h
    obtain rfl := Except.error.inj h
    exact hflaw
  · rw [checkAs_of_fits hfits] at h
    cases h

theorem checkAs_eq_ok : row.checkAs keys = .ok () ↔ row.Fits keys := by
  refine ⟨fun h => ?_, checkAs_of_fits⟩
  rcases flaw_or_fits keys row with ⟨e, hflaw⟩ | hfits
  · rw [checkAs_of_flaw hflaw] at h
    cases h
  · exact hfits

theorem Fits.alone (h : row.Fits keys) : row.Fits row.keys := ⟨h.ne_nil, h.not_blank, rfl⟩

/-- A row can be written by itself if it has no flaw beside its own columns. -/
theorem check_eq_ok : row.check = .ok () ↔ row.Fits row.keys := by
  refine ⟨fun h => checkAs_eq_ok.mp ?_, fun h => check_of_not_blank h.ne_nil h.not_blank⟩
  rw [checkAs, h]
  exact if_pos rfl

end Row

/-! ## Checking a batch -/

namespace Insertion

variable {keys : List Text} {rows : List Row} {e : Error}

theorem checkAll_cons (keys : List Text) (row : Row) (rest : List Row) :
    checkAll keys (row :: rest) = (row.checkAs keys >>= fun _ => checkAll keys rest) := by
  rw [checkAll, Row.checkAs, bind_assoc]
  congr 1
  funext u
  split <;> rfl

theorem checkAll_eq_ok : checkAll keys rows = .ok () ↔ ∀ row ∈ rows, row.Fits keys := by
  induction rows with
  | nil => simp [checkAll]
  | cons row rest ih =>
    rw [checkAll_cons, Except.bind_ok_iff, List.forall_mem_cons, ← ih, ← Row.checkAs_eq_ok]
    exact ⟨fun ⟨_, h, hrest⟩ => ⟨h, hrest⟩, fun ⟨h, hrest⟩ => ⟨(), h, hrest⟩⟩

/-- The error of a batch is the flaw of the first row that has one. -/
theorem checkAll_eq_error : checkAll keys rows = .error e ↔ ∃ before row after,
    rows = before ++ row :: after ∧ (∀ other ∈ before, other.Fits keys) ∧ row.Flaw keys e := by
  induction rows with
  | nil => simp [checkAll]
  | cons row rest ih =>
    rw [checkAll_cons, Except.bind_error_iff, Row.checkAs_eq_error]
    constructor
    · rintro (hflaw | ⟨_, hrow, hrest⟩)
      · exact ⟨[], row, rest, rfl, nofun, hflaw⟩
      · obtain ⟨before, found, after, rfl, hbefore, hflaw⟩ := ih.mp hrest
        have hfits := List.forall_mem_cons.mpr ⟨Row.checkAs_eq_ok.mp hrow, hbefore⟩
        exact ⟨row :: before, found, after, rfl, hfits, hflaw⟩
    · rintro ⟨before, found, after, hrows, hbefore, hflaw⟩
      cases before with
      | nil =>
        obtain ⟨rfl, rfl⟩ := List.cons.inj hrows
        exact .inl hflaw
      | cons first before =>
        obtain ⟨rfl, rfl⟩ := List.cons.inj hrows
        obtain ⟨hfirst, hbefore⟩ := List.forall_mem_cons.mp hbefore
        exact .inr ⟨(), Row.checkAs_eq_ok.mpr hfirst,
          ih.mpr ⟨before, found, after, rfl, hbefore, hflaw⟩⟩

theorem batch_cons (first : Row) (rest : List Row) : batch (first :: rest) =
    (checkAll first.keys (first :: rest)).map fun _ => ⟨first :: rest⟩ := by
  rw [batch]
  cases checkAll first.keys (first :: rest) <;> rfl

end Insertion

/-! ## Compiling rows -/

/-- The text of an insert up to its values. -/
def insertHead (mode : InsertMode) (target : Text) (keys : List Text) : Text :=
  mode.keyword ++ " INTO " ++ target ++ " (" ++ Text.joined "," keys ++ ") VALUES ("

namespace Statements

variable {p : TablePrefix} {st : Statements} {mode : InsertMode} {row : Row} {rows : List Row}

/-- The insert of a row that can be written, into a table. -/
def rowQuery (st : Statements) (target : Text) (mode : InsertMode) (row : Row) : Query where
  text := ofText (insertHead mode target row.keys) ++ Fragment.joined "," (row.map (·.2.fragment)) ++
    ofText ")" ++
      if st.onDuplicate.isEmpty then .empty
      else ofText " ON DUPLICATE KEY UPDATE " ++ st.onDuplicate.assignments
  kind := .ofMode mode

theorem head_rowQuery (st : Statements) (target : Text) (mode : InsertMode) (row : Row) :
    insertHead mode target row.keys <+: (st.rowQuery target mode row).sql := by
  simp only [rowQuery, Query.sql, Fragment.sql_append, Fragment.sql_ofText, List.append_assoc]
  exact List.prefix_append _ _

theorem targetText_cases (p : TablePrefix) (st : Statements) :
    (∃ t, st.tables = [t] ∧ st.targetText p = .ok (t.text p)) ∨
    (st.tables.length ≠ 1 ∧ st.targetText p = .error .noTable) := by
  unfold targetText
  rcases htables : st.tables with _ | ⟨t, _ | ⟨u, ts⟩⟩
  · exact .inr ⟨by simp, rfl⟩
  · exact .inl ⟨t, rfl, rfl⟩
  · exact .inr ⟨by simp, rfl⟩

theorem targetText_of_single {t : TableRef} (h : st.tables = [t]) : st.targetText p = .ok (t.text p) := by
  rw [targetText, h]

theorem insertRow_of_no_target {e : Error} (ht : st.targetText p = .error e) :
    st.insertRow p row mode = .error e := by
  rw [insertRow, ht]
  rfl

theorem insertRow_of_check {target : Text} (ht : st.targetText p = .ok target)
    (hrow : row.check = .ok ()) : st.insertRow p row mode = .ok (st.rowQuery target mode row) := by
  rw [insertRow, ht, hrow]
  rfl

theorem insertRows_of_check {target : Text} (ht : st.targetText p = .ok target)
    (hrows : ∀ row ∈ rows, Row.check row = .ok ()) :
    st.insertRows p mode rows = .ok (rows.map (st.rowQuery target mode)) := by
  induction rows with
  | nil => rfl
  | cons row rest ih =>
    obtain ⟨hrow, hrest⟩ := List.forall_mem_cons.mp hrows
    rw [insertRows, insertRow_of_check ht hrow, ih hrest]
    rfl

theorem insertRows_of_no_target {e : Error} (ht : st.targetText p = .error e) (first : Row)
    (rest : List Row) : st.insertRows p mode (first :: rest) = .error e := by
  rw [insertRows, insertRow_of_no_target ht]
  rfl

end Statements

/-! ## A batch and its single rows -/

/-- Why a batch is refused by a builder without an error: there are no rows, or
a row has a flaw, of which the first one counts, or else there is no single
table. -/
inductive Refused (st : Statements) : List Row → Error → Prop where
  | noRows : Refused st [] .noData
  | flaw {first : Row} {rest before : List Row} {row : Row} {after : List Row} {e : Error}
      (hrows : first :: rest = before ++ row :: after)
      (hbefore : ∀ other ∈ before, other.Fits first.keys) (hrow : row.Flaw first.keys e) :
      Refused st (first :: rest) e
  | noTarget {first : Row} {rest : List Row} (hrows : ∀ row ∈ first :: rest, row.Fits first.keys)
      (htables : st.tables.length ≠ 1) : Refused st (first :: rest) .noTable

/-- A batch that is compiled: there are rows, none with a flaw, all with the same
columns, and there is a single table for them. -/
structure Admitted (st : Statements) (t : TableRef) (rows : List Row) : Prop where
  ne_nil : rows ≠ []
  fits : ∀ row ∈ rows, row.Fits row.keys
  keys_eq : ∀ row ∈ rows, ∀ other ∈ rows, row.keys = other.keys
  tables_eq : st.tables = [t]

/-- A batch is refused for its rows, or else for its table. -/
theorem Refused.batch_or_target {st : Statements} {rows : List Row} {e : Error} (h : Refused st rows e) :
    Insertion.batch rows = .error e ∨
    rows ≠ [] ∧ Insertion.batch rows = .ok ⟨rows⟩ ∧ ∀ p, st.targetText p = .error e := by
  cases h with
  | noRows => exact .inl rfl
  | flaw hrows hbefore hrow =>
    have hcheck := Insertion.checkAll_eq_error.mpr ⟨_, _, _, hrows, hbefore, hrow⟩
    exact .inl (by rw [Insertion.batch_cons, hcheck]; rfl)
  | noTarget hrows htables =>
    refine .inr ⟨List.cons_ne_nil _ _, ?_, fun p => ?_⟩
    · rw [Insertion.batch_cons, Insertion.checkAll_eq_ok.mpr hrows]
      rfl
    · rcases st.targetText_cases p with ⟨t, htable, -⟩ | ⟨-, htarget⟩
      · rw [htable] at htables
        exact absurd rfl htables
      · exact htarget

namespace Admitted

variable {st : Statements} {t : TableRef} {rows : List Row}

theorem batch_eq (h : Admitted st t rows) : Insertion.batch rows = .ok ⟨rows⟩ := by
  obtain ⟨first, rest, rfl⟩ := List.exists_cons_of_ne_nil h.ne_nil
  have hfits : ∀ row ∈ first :: rest, row.Fits first.keys := fun row hrow => by
    rw [← h.keys_eq row hrow first List.mem_cons_self]
    exact h.fits row hrow
  rw [Insertion.batch_cons, Insertion.checkAll_eq_ok.mpr hfits]
  rfl

theorem check_eq_ok (h : Admitted st t rows) : ∀ row ∈ rows, Row.check row = .ok () :=
  fun row hrow => Row.check_eq_ok.mpr (h.fits row hrow)

end Admitted

theorem refused_or_admitted (st : Statements) (rows : List Row) :
    (∃ e, Refused st rows e) ∨ ∃ t, Admitted st t rows := by
  cases rows with
  | nil => exact .inl ⟨_, .noRows⟩
  | cons first rest =>
    cases hcheck : Insertion.checkAll first.keys (first :: rest) with
    | error e =>
      obtain ⟨before, row, after, hrows, hbefore, hrow⟩ := Insertion.checkAll_eq_error.mp hcheck
      exact .inl ⟨e, .flaw hrows hbefore hrow⟩
    | ok =>
      have hrows := Insertion.checkAll_eq_ok.mp hcheck
      rcases st.targetText_cases {} with ⟨t, htable, -⟩ | ⟨htables, -⟩
      · refine .inr ⟨t, List.cons_ne_nil _ _, fun row hrow => (hrows row hrow).alone,
          fun row hrow other hother => ?_, htable⟩
        rw [(hrows row hrow).keys_eq, (hrows other hother).keys_eq]
      · exact .inl ⟨_, .noTarget hrows htables⟩

namespace Builder

variable {b : Builder} {mode : InsertMode} {row : Row} {rows : List Row} {e : Error}

theorem insertQueries_of_refused (hb : b.error = none) (h : Refused b.statements rows e) :
    b.insertQueries rows mode = .error e := by
  rcases h.batch_or_target with hbatch | ⟨hrows, hbatch, htarget⟩
  · rw [insertQueries, checked_of_none hb, hbatch]
    rfl
  · obtain ⟨first, rest, rfl⟩ := List.exists_cons_of_ne_nil hrows
    rw [insertQueries, checked_of_none hb, hbatch]
    exact Statements.insertRows_of_no_target (htarget _) first rest

theorem insertQueries_of_admitted (hb : b.error = none) {t : TableRef}
    (h : Admitted b.statements t rows) : b.insertQueries rows mode =
      .ok (rows.map (b.statements.rowQuery (t.text b.config.toTablePrefix) mode)) := by
  rw [insertQueries, checked_of_none hb, h.batch_eq]
  exact Statements.insertRows_of_check (Statements.targetText_of_single h.tables_eq) h.check_eq_ok

theorem error_eq_none_of_insertQueries {qs : List Query} (h : b.insertQueries rows mode = .ok qs) :
    b.error = none := by
  obtain ⟨st, hst, -⟩ := Except.bind_ok_iff.mp h
  exact (checked_eq_ok.mp hst).1

/-- Just these batches are compiled, and to these queries. -/
theorem insertQueries_eq_ok {qs : List Query} : b.insertQueries rows mode = .ok qs ↔
    b.error = none ∧ ∃ t, Admitted b.statements t rows ∧
      qs = rows.map (b.statements.rowQuery (t.text b.config.toTablePrefix) mode) := by
  constructor
  · intro h
    have hb := error_eq_none_of_insertQueries h
    rcases refused_or_admitted b.statements rows with ⟨e, hrefused⟩ | ⟨t, hadmitted⟩
    · rw [insertQueries_of_refused hb hrefused] at h
      cases h
    · rw [insertQueries_of_admitted hb hadmitted] at h
      exact ⟨hb, t, hadmitted, (Except.ok.inj h).symm⟩
  · rintro ⟨hb, t, hadmitted, rfl⟩
    exact insertQueries_of_admitted hb hadmitted

/-- Just these batches are refused, and for these reasons. -/
theorem insertQueries_eq_error (hb : b.error = none) :
    b.insertQueries rows mode = .error e ↔ Refused b.statements rows e := by
  refine ⟨fun h => ?_, insertQueries_of_refused hb⟩
  rcases refused_or_admitted b.statements rows with ⟨e', hrefused⟩ | ⟨t, hadmitted⟩
  · rw [insertQueries_of_refused hb hrefused] at h
    obtain rfl := Except.error.inj h
    exact hrefused
  · rw [insertQueries_of_admitted hb hadmitted] at h
    cases h

theorem query_insert (hb : b.error = none) (row : Row) (mode : InsertMode) :
    b.query (.insert row mode) =
      (row.check >>= fun _ => b.statements.insertRow b.config.toTablePrefix row mode) := by
  rw [query, checked_of_none hb]
  rfl

/-- Just these single rows are compiled, and to these queries. -/
theorem query_insert_eq_ok {q : Query} : b.query (.insert row mode) = .ok q ↔
    b.error = none ∧ row.Fits row.keys ∧ ∃ t, b.statements.tables = [t] ∧
      q = b.statements.rowQuery (t.text b.config.toTablePrefix) mode row := by
  constructor
  · intro h
    obtain ⟨st, hst, -⟩ := Except.bind_ok_iff.mp h
    have hb := (checked_eq_ok.mp hst).1
    rw [query_insert hb] at h
    obtain ⟨_, hrow, h⟩ := Except.bind_ok_iff.mp h
    refine ⟨hb, Row.check_eq_ok.mp hrow, ?_⟩
    rcases b.statements.targetText_cases b.config.toTablePrefix with ⟨t, htable, htarget⟩ | ⟨-, htarget⟩
    · rw [Statements.insertRow_of_check htarget hrow] at h
      exact ⟨t, htable, (Except.ok.inj h).symm⟩
    · rw [Statements.insertRow_of_no_target htarget] at h
      cases h
  · rintro ⟨hb, hrow, t, htable, rfl⟩
    have hcheck := Row.check_eq_ok.mpr hrow
    rw [query_insert hb, hcheck]
    exact Statements.insertRow_of_check (Statements.targetText_of_single htable) hcheck

/-- **A batch is its single rows, all of them or none.** A batch is compiled just
when there are rows, each of them is compiled as a single insert, and all have
the same columns in the same order. Its queries are then those of the single
inserts, row by row, and they share their text up to the values. A batch refused
by a builder without an error is refused for want of rows, else for the flaw of
the first row that has one, and only then for want of a single table. -/
theorem batch_as_singles (b : Builder) (rows : List Row) (mode : InsertMode) :
    ((∃ qs, b.insertQueries rows mode = .ok qs) ↔
      rows ≠ [] ∧ (∀ row ∈ rows, ∃ q, b.query (.insert row mode) = .ok q) ∧
      ∀ row ∈ rows, ∀ other ∈ rows, row.keys = other.keys) ∧
    (∀ qs, b.insertQueries rows mode = .ok qs →
      List.Forall₂ (fun row q => b.query (.insert row mode) = .ok q) rows qs ∧
      ∃ target, ∀ row ∈ rows, ∀ q ∈ qs, insertHead mode target row.keys <+: q.sql) ∧
    (b.error = none → ∀ e, b.insertQueries rows mode = .error e ↔ Refused b.statements rows e) := by
  refine ⟨⟨?_, ?_⟩, ?_, fun hb e => insertQueries_eq_error hb⟩
  · rintro ⟨qs, h⟩
    obtain ⟨hb, t, hadmitted, -⟩ := insertQueries_eq_ok.mp h
    refine ⟨hadmitted.ne_nil, fun row hrow => ?_, hadmitted.keys_eq⟩
    exact ⟨_, query_insert_eq_ok.mpr ⟨hb, hadmitted.fits row hrow, t, hadmitted.tables_eq, rfl⟩⟩
  · rintro ⟨hrows, hqueries, hkeys⟩
    have hfits : ∀ row ∈ rows, row.Fits row.keys := fun row hrow => by
      obtain ⟨q, hq⟩ := hqueries row hrow
      exact (query_insert_eq_ok.mp hq).2.1
    obtain ⟨first, hfirst⟩ := List.exists_mem_of_ne_nil rows hrows
    obtain ⟨q, hq⟩ := hqueries first hfirst
    obtain ⟨hb, -, t, htable, -⟩ := query_insert_eq_ok.mp hq
    exact ⟨_, insertQueries_of_admitted hb ⟨hrows, hfits, hkeys, htable⟩⟩
  · intro qs h
    obtain ⟨hb, t, hadmitted, rfl⟩ := insertQueries_eq_ok.mp h
    refine ⟨List.forall₂_map_right_iff.mpr (List.forall₂_same.mpr fun row hrow => ?_),
      t.text b.config.toTablePrefix, fun row hrow q hq => ?_⟩
    · exact query_insert_eq_ok.mpr ⟨hb, hadmitted.fits row hrow, t, hadmitted.tables_eq, rfl⟩
    · obtain ⟨other, hother, rfl⟩ := List.mem_map.mp hq
      rw [hadmitted.keys_eq row hrow other hother]
      exact Statements.head_rowQuery _ _ _ _

/-- A batch for one table, and one with two flaws for no table at all. -/
theorem batch_as_singles_sample :
    let b : Builder := { statements := { tables := [⟨.named "users", some "u"⟩] } }
    let one : Row := [("id", .plain (.int 1)), ("name", .plain (.string "a"))]
    let two : Row := [("id", .plain (.int 2)), ("name", .plain .null)]
    let blank : Row := [("id", .plain (.int 3)), (" ", .plain .null), ("", .plain .null)]
    (∃ q r, b.insertQueries [one, two] .replace = .ok [q, r] ∧
      b.query (.insert one .replace) = .ok q ∧ b.query (.insert two .replace) = .ok r ∧
      r.sql = "REPLACE INTO users AS u (id,name) VALUES (%d,NULL)".toList) ∧
    ({} : Builder).error = none ∧
    ({} : Builder).insertQueries [one, two, blank, []] .insert = .error (.statement (.blankKey " ")) := by
  intro b one two blank
  have hone : one.Fits one.keys := Row.check_eq_ok.mp rfl
  have htwo : two.Fits one.keys := Row.check_eq_ok.mp (rfl : two.check = .ok ())
  refine ⟨?_, rfl, ?_⟩
  · obtain ⟨hiff, hsingles, -⟩ := batch_as_singles b [one, two] .replace
    have hqueries : ∀ row ∈ [one, two], ∃ q, b.query (.insert row .replace) = .ok q :=
      List.forall_mem_cons.mpr ⟨⟨_, rfl⟩, List.forall_mem_singleton.mpr ⟨_, rfl⟩⟩
    have hkeys : ∀ row ∈ [one, two], ∀ other ∈ [one, two], row.keys = other.keys := by
      simp [one, two, Row.keys]
    obtain ⟨qs, hqs⟩ := hiff.mpr ⟨List.cons_ne_nil _ _, hqueries, hkeys⟩
    obtain ⟨hrows, -⟩ := hsingles qs hqs
    cases hrows with
    | cons hq hrest =>
      cases hrest with
      | cons hr hrest =>
        cases hrest
        refine ⟨_, _, hqs, hq, hr, ?_⟩
        cases hr
        rfl
  · obtain ⟨-, -, herror⟩ := batch_as_singles {} [one, two, blank, []] .insert
    have hrows : [one, two, blank, []] = [one, two] ++ blank :: [[]] := rfl
    have hblank : blank = [("id".toList, .plain (.int 3))] ++
        (" ".toList, .plain .null) :: [("".toList, .plain .null)] := rfl
    have hfits : ∀ other ∈ [one, two], other.Fits one.keys :=
      List.forall_mem_cons.mpr ⟨hone, List.forall_mem_singleton.mpr htwo⟩
    exact (herror rfl _).mpr (.flaw hrows hfits
      (.blankKey hblank (List.forall_mem_singleton.mpr rfl) rfl))

end Builder

end BoundSql
