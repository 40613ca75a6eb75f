/-
Builders: statements collected call by call.

A call is checked and either pushes its statements or leaves them as they are.
The first error of all calls is kept, and every query asked for afterwards is
that error.
-/
import BoundSql.Builder.Condition
import BoundSql.Config.Basic
import BoundSql.Query.Compile

namespace BoundSql

/-! ## Calls -/

inductive Call where
  | tables (refs : List (Field × Option Text))
  | select (columns : List (Field × Option Text))
  | distinct
  | join (kind : JoinKind) (table : Field) (parts : List JoinPart)
  | filter (c : Condition)
  | having (c : Condition)
  | groupBy (field : Field)
  | orderBy (field : Field) (direction : Direction)
  | limit (n : UInt64)
  | offset (n : UInt64)
  | paginate (page size : UInt64)
  | onDuplicate (row : Row)

namespace Call

/-- The statement of a condition in a clause, if it is not absent. One handed in
ready-made goes to the clause it was made for. -/
def ofCondition (k : Clause) (c : Condition) : List (Except Error Statement) :=
  match c.criterion? k with
  | .ok none => []
  | .ok (some criterion) => [criterion.statement]
  | .error e => [.error e]

/-- The statements a call asks for, each accepted or refused. -/
def statements : Call → List (Except Error Statement)
  | .tables refs => refs.map fun (field, asName) => Statement.table <$> TableRef.make field asName
  | .select columns =>
    columns.map fun (field, asName) => Statement.select <$> Projection.make field asName
  | .distinct => [.ok (.distinct true)]
  | .join kind table parts => [Statement.join <$> Join.ofParts kind table parts]
  | .filter c => ofCondition .filter c
  | .having c => ofCondition .having c
  | .groupBy field => [Statement.groupBy <$> Grouping.make field]
  | .orderBy field direction => [Statement.orderBy <$> SortKey.make field direction]
  | .limit n => [.ok (.limit (some n))]
  | .offset n => [.ok (.offset (some n))]
  | .paginate page size => [Statement.pageOf page size]
  | .onDuplicate row => [Statement.duplicateKey row]

/-- A projection written as SQL. -/
def selectRaw (sql : Text) : Call := .select [(.column (.raw (.ofText sql)), none)]

/-- A join on one condition between two columns. -/
def joinOn (kind : JoinKind) (table left : Field) (operator : Text) (right : Field) : Call :=
  .join kind table [.on .and left operator (.field right)]

def crossJoin (table : Field) : Call := .join .cross table []

end Call

/-! ## Builders -/

/-- A query being built: its configuration, its statements, and the first error
of its calls. -/
structure Builder where
  config : Config := {}
  statements : Statements := {}
  error : Option Error := none
  deriving Inhabited

namespace Builder

/-- A builder without statements and with the same configuration. -/
def fresh (b : Builder) : Builder := { config := b.config }

/-- Takes one statement, or keeps the error if it is the first. -/
def record (b : Builder) : Except Error Statement → Builder
  | .ok s => { b with statements := b.statements.push s }
  | .error e => { b with error := b.error <|> some e }

def apply (b : Builder) (call : Call) : Builder := call.statements.foldl record b

def applyAll (b : Builder) (calls : List Call) : Builder := calls.foldl apply b

/-- The statements, unless a call has failed. -/
def checked (b : Builder) : Except Error Statements :=
  match b.error with
  | none => .ok b.statements
  | some e => .error e

theorem checked_of_none {b : Builder} (h : b.error = none) : b.checked = .ok b.statements := by
  simp only [checked, h]

theorem checked_of_error {b : Builder} {e : Error} (h : b.error = some e) : b.checked = .error e := by
  simp only [checked, h]

theorem checked_eq_ok {b : Builder} {st : Statements} :
    b.checked = .ok st ↔ b.error = none ∧ b.statements = st := by
  cases h : b.error with
  | none => simp [checked_of_none h]
  | some e => simp [checked_of_error h]

/-! ## Queries -/

inductive Request where
  | plain (kind : QueryKind)
  | insert (row : Row) (mode : InsertMode)
  | update (row : Row)
  | aggregate (fn : Aggregate) (field : Field)

def Request.select : Request := .plain .select

def Request.delete : Request := .plain .delete

/-- The request for the number of rows. -/
def Request.count : Request := .aggregate .count (.column (.name "*"))

def query (b : Builder) (r : Request) : Except Error Query := do
  let st ← b.checked
  let p := b.config.toTablePrefix
  match r with
  | .plain kind => st.compile p kind
  | .insert row mode => do
    row.check
    st.insertRow p row mode
  | .update row => st.update p row
  | .aggregate fn field => st.aggregate p fn field

/-- The inserts of several rows with the same columns, one query for each. -/
def insertQueries (b : Builder) (rows : List Row) (mode : InsertMode) :
    Except Error (List Query) := do
  let st ← b.checked
  let insertion ← Insertion.batch rows
  st.insertRows b.config.toTablePrefix mode insertion.rows

/-- The rows selected, as a fragment to use inside another query. -/
def subquery (b : Builder) (asName : Text) : Except Error Fragment :=
  return (← b.query .select).subquery asName

end Builder

end BoundSql
