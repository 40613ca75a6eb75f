/-
Compiling statements and compiling the same statements with their values
spliced run side by side: both fail with the same error, or they make queries
in the relation `Spliced`.

Splicing is an edit, and `Spliced` goes through the compiler, since no percent
sign reaches over the constant text between two parts.
-/
import BoundSql.Proofs.Congruence
import BoundSql.Proofs.Splice

namespace BoundSql

variable {p : TablePrefix}

theorem Column.edited_splicing (c : Column) : c.edited .splicing = c := by cases c <;> rfl

theorem Spliced.texts_eq {t u : Text} (h : Spliced (Fragment.ofText t) (Fragment.ofText u)) :
    t = u :=
  (congrArg Fragment.sql h.eq).symm

/-- Putting bindings in goes through the compiler. -/
theorem Spliced.congruence (hp : p.Tidy) : Congruence p .tidy .splicing Spliced Eq where
  empty := .empty
  opening hs h :=
    (Spliced.ofText (placeholders_of_not_mem (Text.not_mem_of_inert hs))).append h
      (.of_not_mem _ (Text.not_mem_of_inert hs))
  append hf hg hl _ := hf.append hg (.of_attaches (Text.attaches_of_leads hl))
  trim h := h.trim
  isEmpty_eq h := h.isEmpty_eq
  word h := .ofText (placeholders_of_not_mem h)
  table h := .ofText (placeholders_of_not_mem (TablePrefix.not_mem_table hp h))
  column {c} h := by
    rw [Column.edited_splicing]
    exact .ofText (Column.placeholders_text hp h)
  raw h := .ofText (Fragment.Filled.placeholders_inlined h)
  value h := Value.spliced_fragment h
  error_refl _ := rfl
  error h := by rw [h.texts_eq]

namespace Statements

variable {st : Statements}

theorem run_spliced (hp : p.Tidy) (h : st.Tidy) (task : Task) (ht : task.Obeys .tidy) :
    Alike (Query.Related Spliced) (st.run p task) (st.spliced.run p (task.edited .splicing)) :=
  (Spliced.congruence hp).run h ht

theorem select_spliced (hp : p.Tidy) (h : st.Tidy) :
    Alike (Query.Related Spliced) (st.select p) (st.spliced.select p) :=
  run_spliced hp h .select trivial

theorem aggregate_spliced (hp : p.Tidy) (h : st.Tidy) (fn : Aggregate) {field : Field}
    (hf : field.Tidy) :
    Alike (Query.Related Spliced) (st.aggregate p fn field) (st.spliced.aggregate p fn field) := by
  cases field with
  | column c =>
    have hrun := run_spliced hp h (.aggregate fn (.column c)) hf
    rwa [Task.edited, Field.edited, Column.edited_splicing] at hrun
  | group => rfl

theorem insertRow_spliced (hp : p.Tidy) (h : st.Tidy) {row : Row} (hrow : row.Tidy)
    (mode : InsertMode) :
    Alike (Query.Related Spliced) (st.insertRow p row mode) (st.spliced.insertRow p row.spliced mode) :=
  run_spliced hp h (.insertRow row mode) hrow

theorem update_spliced (hp : p.Tidy) (h : st.Tidy) {row : Row} (hrow : row.Tidy) :
    Alike (Query.Related Spliced) (st.update p row) (st.spliced.update p row.spliced) :=
  run_spliced hp h (.update row) hrow

theorem delete_spliced (hp : p.Tidy) (h : st.Tidy) :
    Alike (Query.Related Spliced) (st.delete p) (st.spliced.delete p) :=
  run_spliced hp h .delete trivial

end Statements

end BoundSql
