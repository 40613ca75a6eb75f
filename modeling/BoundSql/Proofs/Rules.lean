/-
What is asked of what callers give, wherever it stands.

`Rules` say what is asked of names, columns, values and raw SQL, and `Obeys`
asks it at every place of statements where these can stand, however deep in
groups.
-/
import BoundSql.Proofs.Operands

namespace BoundSql

/-- What is asked of what callers give: of texts that are names, operators or
keys, and of columns, values and raw SQL. -/
structure Rules where
  word : Text → Prop
  column : Column → Prop
  value : Value → Prop
  raw : Fragment → Prop

variable (R : Rules)

def Test.Obeys : Test → Prop
  | .literal f => R.raw f
  | .unary c op => R.column c ∧ R.word op
  | .compare c op v => R.column c ∧ R.word op ∧ R.value v
  | .among c op vs => R.column c ∧ R.word op ∧ ∀ v ∈ vs, R.value v
  | .columns c op other => R.column c ∧ R.word op ∧ R.column other

def Criterion.Obeys (cs : List Criterion) : Prop := ∀ t ∈ Criterion.allTests cs, t.Obeys R

/-- A group is no column, so nothing is asked of it. -/
def Field.Obeys (field : Field) : Prop := ∀ c ∈ field.column?, R.column c

def TableSource.Obeys : TableSource → Prop
  | .named name => R.word name
  | .raw f => R.raw f

structure TableRef.Obeys (t : TableRef) : Prop where
  source : t.source.Obeys R
  asName : ∀ name ∈ t.asName, R.word name

structure Projection.Obeys (s : Projection) : Prop where
  column : R.column s.column
  asName : ∀ name ∈ s.asName, R.word name

structure Join.Obeys (j : Join) : Prop where
  table : j.table.Obeys R
  conditions : Criterion.Obeys R j.conditions

def Row.Obeys (row : Row) : Prop := ∀ entry ∈ row, R.word entry.1 ∧ R.value entry.2

structure Statements.Obeys (st : Statements) : Prop where
  tables : ∀ t ∈ st.tables, t.Obeys R
  selects : ∀ s ∈ st.selects, s.Obeys R
  filters : Criterion.Obeys R st.filters
  havings : Criterion.Obeys R st.havings
  joins : ∀ j ∈ st.joins, j.Obeys R
  sortKeys : ∀ k ∈ st.sortKeys, R.column k.column
  groupings : ∀ g ∈ st.groupings, R.column g.column
  onDuplicate : Row.Obeys R st.onDuplicate

/-! Rules that can be checked on names, columns, values and raw SQL can be
checked on statements. -/

section Decidable

variable {R} [DecidablePred R.word] [DecidablePred R.column] [DecidablePred R.value]
  [DecidablePred R.raw]

instance : DecidablePred (Test.Obeys R)
  | .literal f => inferInstanceAs (Decidable (R.raw f))
  | .unary c op => inferInstanceAs (Decidable (R.column c ∧ R.word op))
  | .compare c op v => inferInstanceAs (Decidable (R.column c ∧ R.word op ∧ R.value v))
  | .among c op vs => inferInstanceAs (Decidable (R.column c ∧ R.word op ∧ ∀ v ∈ vs, R.value v))
  | .columns c op other => inferInstanceAs (Decidable (R.column c ∧ R.word op ∧ R.column other))

instance (cs : List Criterion) : Decidable (Criterion.Obeys R cs) :=
  inferInstanceAs (Decidable (∀ t ∈ Criterion.allTests cs, t.Obeys R))

instance (field : Field) : Decidable (field.Obeys R) :=
  inferInstanceAs (Decidable (∀ c ∈ field.column?, R.column c))

instance : DecidablePred (TableSource.Obeys R)
  | .named name => inferInstanceAs (Decidable (R.word name))
  | .raw f => inferInstanceAs (Decidable (R.raw f))

instance (t : TableRef) : Decidable (t.Obeys R) :=
  decidable_of_iff (t.source.Obeys R ∧ ∀ name ∈ t.asName, R.word name)
    ⟨fun h => ⟨h.1, h.2⟩, fun h => ⟨h.source, h.asName⟩⟩

instance (s : Projection) : Decidable (s.Obeys R) :=
  decidable_of_iff (R.column s.column ∧ ∀ name ∈ s.asName, R.word name)
    ⟨fun h => ⟨h.1, h.2⟩, fun h => ⟨h.column, h.asName⟩⟩

instance (j : Join) : Decidable (j.Obeys R) :=
  decidable_of_iff (j.table.Obeys R ∧ Criterion.Obeys R j.conditions)
    ⟨fun h => ⟨h.1, h.2⟩, fun h => ⟨h.table, h.conditions⟩⟩

instance (row : Row) : Decidable (Row.Obeys R row) :=
  inferInstanceAs (Decidable (∀ entry ∈ row, R.word entry.1 ∧ R.value entry.2))

instance (st : Statements) : Decidable (st.Obeys R) :=
  decidable_of_iff ((∀ t ∈ st.tables, t.Obeys R) ∧ (∀ s ∈ st.selects, s.Obeys R) ∧
      Criterion.Obeys R st.filters ∧ Criterion.Obeys R st.havings ∧ (∀ j ∈ st.joins, j.Obeys R) ∧
      (∀ k ∈ st.sortKeys, R.column k.column) ∧ (∀ g ∈ st.groupings, R.column g.column) ∧
      Row.Obeys R st.onDuplicate)
    ⟨fun ⟨h1, h2, h3, h4, h5, h6, h7, h8⟩ => ⟨h1, h2, h3, h4, h5, h6, h7, h8⟩,
      fun h => ⟨h.tables, h.selects, h.filters, h.havings, h.joins, h.sortKeys, h.groupings,
        h.onDuplicate⟩⟩

end Decidable

end BoundSql
