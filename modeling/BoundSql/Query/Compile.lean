/-
Queries from statements.

Clauses are written in a fixed order and empty ones are left out. Each part is
a fragment, and a query is the parts one after the other, so its bindings come
in the order of its text.
-/
import BoundSql.Criterion.Render
import BoundSql.Query.Basic
import BoundSql.Statement.Collection

namespace BoundSql

open Fragment (ofText)

/-! ## Clauses -/

/-- A clause of conditions; empty text has no clause. -/
def conditionClause (keyword : Text) (conditions : Fragment) : Fragment :=
  if conditions.sql.isEmpty then .empty else ofText keyword ++ conditions

/-- A clause that lists texts; an empty list has no clause. -/
def listClause (keyword : Text) (items : List Text) : Text :=
  if items.isEmpty then [] else keyword ++ Text.joined ", " items

/-- A clause with a number, if there is one. -/
def numberClause (keyword : Text) : Option UInt64 → Text
  | none => []
  | some n => keyword ++ natText n.toNat

/-- The SQL of a join. The ON falls away where its conditions are empty
text. -/
def Join.fragment (p : TablePrefix) (j : Join) : Except Error Fragment := do
  let conditions ← Criterion.render p j.conditions
  return ofText (" " ++ j.kind.keyword ++ " JOIN " ++ j.table.text p) ++
    conditionClause " ON " conditions

/-- The SQL of joins, one after the other. -/
def Join.fragments (p : TablePrefix) : List Join → Except Error Fragment
  | [] => .ok .empty
  | j :: rest => do
    let first ← j.fragment p
    return first ++ (← Join.fragments p rest)

/-- The assignment of a value to a column. -/
def assignment (entry : Text × Value) : Fragment :=
  ofText (entry.1 ++ "=") ++ entry.2.fragment

/-- The assignments of a row. -/
def Row.assignments (row : Row) : Fragment := Fragment.joined ", " (row.map assignment)

namespace Statements

/-- The tables of a query that reads. -/
def fromText (p : TablePrefix) (st : Statements) : Except Error Text :=
  if st.tables.isEmpty then .error .noTable
  else .ok (Text.joined ", " (st.tables.map (·.text p)))

/-- The one table of a query that writes. -/
def targetText (p : TablePrefix) (st : Statements) : Except Error Text :=
  match st.tables with
  | [t] => .ok (t.text p)
  | _ => .error .noTable

/-- What a query selects: its columns, or everything. -/
def projectionText (p : TablePrefix) (st : Statements) : Text :=
  if st.selects.isEmpty then "*" else Text.joined ", " (st.selects.map (·.text p))

/-! ## SELECT -/

def selectFragment (p : TablePrefix) (st : Statements) : Except Error Fragment := do
  let tables ← st.fromText p
  let joins ← Join.fragments p st.joins
  let filters ← Criterion.render p st.filters
  let havings ← Criterion.render p st.havings
  let head : Text := "SELECT " ++ (if st.distinct then "DISTINCT ".toList else []) ++
    st.projectionText p ++ " FROM " ++ tables
  return ofText head ++ joins ++ conditionClause " WHERE " filters ++
    ofText (listClause " GROUP BY " (st.groupings.map (·.text p))) ++
    conditionClause " HAVING " havings ++
    ofText (listClause " ORDER BY " (st.sortKeys.map (·.text p)) ++
      numberClause " LIMIT " st.limit ++ numberClause " OFFSET " st.offset)

def select (p : TablePrefix) (st : Statements) : Except Error Query :=
  return ⟨← st.selectFragment p, .select⟩

/-- An aggregate over the rows of statements, under the name `field`. Ordering
and paging are left out. Where the rows are groups, the aggregate is over the
query in parentheses, else it takes the place of the columns. -/
def aggregate (p : TablePrefix) (st : Statements) (fn : Aggregate) (field : Field) :
    Except Error Query := do
  let column ← field.text p
  let expression := fn.function ++ "(" ++ column ++ ") AS field"
  if st.isGrouped then
    let inner ← st.unordered.selectFragment p
    let head : Text := "SELECT " ++ expression ++ " FROM ("
    return ⟨ofText head ++ inner ++ ofText ") AS t", .aggregate⟩
  else
    let single := { st.unordered with selects := [⟨.raw (ofText expression), none⟩] }
    return ⟨← single.selectFragment p, .aggregate⟩

/-! ## Writes -/

def insertRow (p : TablePrefix) (st : Statements) (row : Row) (mode : InsertMode) :
    Except Error Query := do
  let target ← st.targetText p
  row.check
  let head : Text := mode.keyword ++ " INTO " ++ target ++ " (" ++ Text.joined "," row.keys ++
    ") VALUES ("
  let values := Fragment.joined "," (row.map (·.2.fragment))
  let duplicate : Fragment :=
    if st.onDuplicate.isEmpty then .empty
    else ofText " ON DUPLICATE KEY UPDATE " ++ st.onDuplicate.assignments
  return ⟨ofText head ++ values ++ ofText ")" ++ duplicate, .ofMode mode⟩

/-- The inserts of rows, one query for each. -/
def insertRows (p : TablePrefix) (st : Statements) (mode : InsertMode) :
    List Row → Except Error (List Query)
  | [] => .ok []
  | row :: rest => do
    let first ← st.insertRow p row mode
    return first :: (← insertRows p st mode rest)

/-- The filters of a write with the number of rows it may touch. -/
def restriction (p : TablePrefix) (st : Statements) : Except Error Fragment := do
  let filters ← Criterion.render p st.filters
  return conditionClause " WHERE " filters ++ ofText (numberClause " LIMIT " st.limit)

/-- The update of the filtered rows with the values of a row. -/
def update (p : TablePrefix) (st : Statements) (row : Row) : Except Error Query := do
  let target ← st.targetText p
  row.check
  let restriction ← st.restriction p
  return ⟨ofText ("UPDATE " ++ target ++ " SET ") ++ row.assignments ++ restriction, .update⟩

def delete (p : TablePrefix) (st : Statements) : Except Error Query := do
  let target ← st.targetText p
  return ⟨ofText ("DELETE FROM " ++ target) ++ (← st.restriction p), .delete⟩

/-- The query of a kind that needs nothing but statements. -/
def compile (p : TablePrefix) (st : Statements) : QueryKind → Except Error Query
  | .select => st.select p
  | .delete => st.delete p
  | kind => .error (.queryKind (.needsData kind))

end Statements

end BoundSql
