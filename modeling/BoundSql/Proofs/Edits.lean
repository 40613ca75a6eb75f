/-
Statements with their raw SQL and their values changed, all else kept.

An `Edit` says what becomes of each piece of raw SQL and of each value, and
`edited` carries it to every place of statements where these can stand,
however deep in groups.
-/
import BoundSql.Proofs.Rules

namespace BoundSql

/-! ## Edits -/

/-- What becomes of raw SQL and of values. -/
structure Edit where
  raw : Fragment → Fragment
  value : Value → Value

variable (e : Edit)

def Column.edited : Column → Column
  | .name t => .name t
  | .raw f => .raw (e.raw f)
  | .json s => .json s

def Test.edited : Test → Test
  | .literal f => .literal (e.raw f)
  | .unary c op => .unary (c.edited e) op
  | .compare c op v => .compare (c.edited e) op (e.value v)
  | .among c op vs => .among (c.edited e) op (vs.map e.value)
  | .columns c op other => .columns (c.edited e) op (other.edited e)

mutual

/-- A condition edited, and with it those inside of it. -/
def Criterion.edited : Criterion → Criterion
  | .leaf j k t => .leaf j k (t.edited e)
  | .group j k op inner => .group j k op (Criterion.allEdited inner)

def Criterion.allEdited : List Criterion → List Criterion
  | [] => []
  | c :: rest => c.edited :: Criterion.allEdited rest

end

def Field.edited : Field → Field
  | .column c => .column (c.edited e)
  | .group inner => .group (Criterion.allEdited e inner)

def TableSource.edited : TableSource → TableSource
  | .named name => .named name
  | .raw f => .raw (e.raw f)

def TableRef.edited (t : TableRef) : TableRef := { t with source := t.source.edited e }

def Projection.edited (s : Projection) : Projection := { s with column := s.column.edited e }

def SortKey.edited (k : SortKey) : SortKey := { k with column := k.column.edited e }

def Grouping.edited (g : Grouping) : Grouping := ⟨g.column.edited e⟩

def Join.edited (j : Join) : Join :=
  { j with table := j.table.edited e, conditions := Criterion.allEdited e j.conditions }

def Row.edited (row : Row) : Row := row.map fun entry => (entry.1, e.value entry.2)

/-- Statements with every clause edited. -/
def Statements.edited (st : Statements) : Statements :=
  { st with
    tables := st.tables.map (·.edited e)
    selects := st.selects.map (·.edited e)
    filters := Criterion.allEdited e st.filters
    havings := Criterion.allEdited e st.havings
    joins := st.joins.map (·.edited e)
    sortKeys := st.sortKeys.map (·.edited e)
    groupings := st.groupings.map (·.edited e)
    onDuplicate := Row.edited e st.onDuplicate }

/-! ## Tasks -/

/-- What can be asked of statements. -/
inductive Task where
  | select
  | aggregate (fn : Aggregate) (field : Field)
  | insertRow (row : Row) (mode : InsertMode)
  | update (row : Row)
  | delete

/-- The query of statements for a task. -/
def Statements.run (p : TablePrefix) (st : Statements) : Task → Except Error Query
  | .select => st.select p
  | .aggregate fn field => st.aggregate p fn field
  | .insertRow row mode => st.insertRow p row mode
  | .update row => st.update p row
  | .delete => st.delete p

def Task.edited : Task → Task
  | .select => .select
  | .aggregate fn field => .aggregate fn (field.edited e)
  | .insertRow row mode => .insertRow (row.edited e) mode
  | .update row => .update (row.edited e)
  | .delete => .delete

/-- The bindings of the operands that go into a task. -/
def Task.bindings (st : Statements) : Task → List Binding
  | .select | .aggregate .. => st.bindings
  | .insertRow row _ => row.bindings ++ Row.bindings st.onDuplicate
  | .update row => row.bindings ++ Criterion.bindings st.filters
  | .delete => Criterion.bindings st.filters

/-- What is asked of what goes into a task. -/
def Task.Obeys (R : Rules) : Task → Prop
  | .select | .delete => True
  | .aggregate _ field => field.Obeys R
  | .insertRow row _ | .update row => row.Obeys R

end BoundSql
