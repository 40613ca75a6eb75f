/-
The statements a query is made of, one type for each clause.

Each type has a `make` that takes what a caller names and refuses what the
clause has no room for, so that a statement can always be written down.
-/
import BoundSql.Criterion.Basic

namespace BoundSql

/-- An expression with the name it is given, if that is not empty. -/
def withName (expression : Text) : Option Text → Text
  | none => expression
  | some name => if name.isEmpty then expression else expression ++ " AS " ++ name

/-! ## Tables -/

/-- What can be a table: a name, or raw SQL such as a sub-query. -/
inductive TableSource where
  | named (name : Text)
  | raw (fragment : Fragment)

/-- A table in FROM or JOIN, with the name it is given there. -/
structure TableRef where
  source : TableSource
  asName : Option Text

/-- The table of a field, which must be a name that is not blank, or raw SQL. -/
def TableRef.make (field : Field) (asName : Option Text) : Except Error TableRef :=
  match field with
  | .column (.name name) =>
    if Text.blank name then .error (.statement .blankTable) else .ok ⟨.named name, asName⟩
  | .column (.raw f) => .ok ⟨.raw f, asName⟩
  | .column (.json _) | .group _ => .error (.statement .tableShape)

/-- The SQL text of a table. Names get the prefix. -/
def TableRef.text (p : TablePrefix) (t : TableRef) : Text :=
  match t.source with
  | .named name => withName (p.table name) t.asName
  | .raw f => withName f.inlined t.asName

/-! ## Columns -/

/-- A column in SELECT, with the name it is given there. -/
structure Projection where
  column : Column
  asName : Option Text

/-- The projection of a field, which must be a column. -/
def Projection.make (field : Field) (asName : Option Text) : Except Error Projection :=
  match field.column? with
  | some c => .ok ⟨c, asName⟩
  | none => .error (.statement .groupSelected)

def Projection.text (p : TablePrefix) (s : Projection) : Text := withName (s.column.text p) s.asName

structure SortKey where
  column : Column
  direction : Direction

/-- The sort key of a field, which must be a column. -/
def SortKey.make (field : Field) (direction : Direction) : Except Error SortKey :=
  match field.column? with
  | some c => .ok ⟨c, direction⟩
  | none => .error (.statement .groupOrderedBy)

def SortKey.text (p : TablePrefix) (k : SortKey) : Text :=
  k.column.text p ++ " " ++ k.direction.keyword

structure Grouping where
  column : Column

/-- The grouping by a field, which must be a column. -/
def Grouping.make (field : Field) : Except Error Grouping :=
  match field.column? with
  | some c => .ok ⟨c⟩
  | none => .error (.statement .groupGroupedBy)

def Grouping.text (p : TablePrefix) (g : Grouping) : Text := g.column.text p

/-! ## Joins -/

def JoinKind.parse (t : Text) : Except Error JoinKind :=
  match JoinKind.ofText? t with
  | some kind => .ok kind
  | none => .error (.statement (.unknownJoin t))

structure Join where
  table : TableRef
  kind : JoinKind
  conditions : List Criterion

/-- A join. Its conditions must be meant for ON, and only a cross join can do
without. -/
def Join.make (table : TableRef) (kind : JoinKind) (conditions : List Criterion) :
    Except Error Join :=
  if conditions.any (·.clause != .joinOn) then .error (.criterion .conditionNotOn)
  else if conditions.isEmpty && kind != .cross then .error (.criterion (.conditionMissing kind))
  else .ok ⟨table, kind, conditions⟩

/-! ## Rows -/

/-- Columns with their values, in order. -/
abbrev Row := List (Text × Value)

/-- A row can be written if it has columns, none with a blank name. -/
def Row.check (row : Row) : Except Error Unit :=
  if row.isEmpty then .error .noData
  else match row.find? fun entry => Text.blank entry.1 with
    | some entry => .error (.statement (.blankKey entry.1))
    | none => .ok ()

def Row.keys (row : Row) : List Text := row.map (·.1)

structure Insertion where
  rows : List Row

def Insertion.single (row : Row) : Except Error Insertion := do
  row.check
  return ⟨[row]⟩

/-- Checks rows in order: each one can be written and has the columns `keys`. -/
def Insertion.checkAll (keys : List Text) : List Row → Except Error Unit
  | [] => .ok ()
  | row :: rest => do
    row.check
    if row.keys = keys then checkAll keys rest else .error (.statement .differentKeys)

/-- Rows to insert, with the columns of the first one. -/
def Insertion.batch : List Row → Except Error Insertion
  | [] => .error .noData
  | first :: rest => do
    checkAll first.keys (first :: rest)
    return ⟨first :: rest⟩

def Insertion.isBatch (i : Insertion) : Bool := decide (1 < i.rows.length)

end BoundSql
