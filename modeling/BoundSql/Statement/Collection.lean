/-
All statements of one query, clause by clause.

A query is built by pushing statements. The lists only grow at their end; the
settings (`distinct`, the paging, the assignments of a duplicate key) keep the
last statement that sets them.
-/
import BoundSql.Statement.Basic

namespace BoundSql

inductive Statement where
  | table (t : TableRef)
  | select (s : Projection)
  | filter (c : Criterion)
  | having (c : Criterion)
  | join (j : Join)
  | orderBy (k : SortKey)
  | groupBy (g : Grouping)
  | distinct (on : Bool)
  | limit (n : Option UInt64)
  | offset (n : Option UInt64)
  | page (size offset : UInt64)
  | onDuplicate (row : Row)

/-- The statement a condition is. A condition meant for ON is none: it belongs
to a join. -/
def Criterion.statement (c : Criterion) : Except Error Statement :=
  match c.clause with
  | .filter => .ok (.filter c)
  | .having => .ok (.having c)
  | .joinOn => .error (.criterion .conditionOutsideJoin)

/-- The assignments of a duplicate key, which must be a row that can be
written. -/
def Statement.duplicateKey (row : Row) : Except Error Statement := do
  row.check
  return .onDuplicate row

/-- The paging for a page and its size, both at least one; page 1 is the first.
An offset past 64 bits is an error. -/
def Statement.pageOf (page size : UInt64) : Except Error Statement :=
  let page := if page = 0 then 1 else page
  let size := if size = 0 then 1 else size
  let offset := (page.toNat - 1) * size.toNat
  if offset < pow2 64 then .ok (.page size (.ofNat offset))
  else .error (.statement (.pageTooFar page size))

structure Statements where
  tables : List TableRef := []
  selects : List Projection := []
  filters : List Criterion := []
  havings : List Criterion := []
  joins : List Join := []
  sortKeys : List SortKey := []
  groupings : List Grouping := []
  distinct : Bool := false
  limit : Option UInt64 := none
  offset : Option UInt64 := none
  onDuplicate : Row := []
  deriving Inhabited

namespace Statements

def push (st : Statements) : Statement → Statements
  | .table t => { st with tables := st.tables ++ [t] }
  | .select s => { st with selects := st.selects ++ [s] }
  | .filter c => { st with filters := st.filters ++ [c] }
  | .having c => { st with havings := st.havings ++ [c] }
  | .join j => { st with joins := st.joins ++ [j] }
  | .orderBy k => { st with sortKeys := st.sortKeys ++ [k] }
  | .groupBy g => { st with groupings := st.groupings ++ [g] }
  | .distinct on => { st with distinct := on }
  | .limit n => { st with limit := n }
  | .offset n => { st with offset := n }
  | .page size offset => { st with limit := some size, offset := some offset }
  | .onDuplicate row => { st with onDuplicate := row }

def pushAll (st : Statements) (more : List Statement) : Statements := more.foldl push st

def unordered (st : Statements) : Statements :=
  { st with sortKeys := [], limit := none, offset := none }

/-- Whether the rows of the query are groups of source rows. -/
def isGrouped (st : Statements) : Bool := !st.groupings.isEmpty || !st.havings.isEmpty

end Statements

end BoundSql
