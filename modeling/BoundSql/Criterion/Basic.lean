/-
Conditions of WHERE, HAVING and ON.

A caller names a `Field`, an operator and perhaps an `Operand`, in any
combination. `Criterion.make` keeps the combinations that mean something and
refuses the rest, so a `Criterion` can always be written down: a group has no
operand, nothing is compared with a group, and only a literal condition has no
operator.
-/
import BoundSql.Selector
import BoundSql.Value

namespace BoundSql

/-- What can stand where a column stands: a name, perhaps `table.column` or a
JSON selector, raw SQL, or a selector. -/
inductive Column where
  | name (t : Text)
  | raw (fragment : Fragment)
  | json (selector : Selector)

def Column.text (p : TablePrefix) : Column → Text
  | .name t =>
    match Selector.parse t with
    | .ok s => s.expression p
    | .error _ => p.field t
  | .raw f => f.inlined
  | .json s => s.expression p

/-- A condition that holds no others. -/
inductive Test where
  | literal (fragment : Fragment)
  | unary (column : Column) (operator : Text)
  | compare (column : Column) (operator : Text) (value : Value)
  | among (column : Column) (operator : Text) (values : List Value)
  | columns (column : Column) (operator : Text) (other : Column)

def Test.operator : Test → Text
  | .literal _ => []
  | .unary _ op | .compare _ op _ | .among _ op _ | .columns _ op _ => op

/-- A condition with what joins it to the one before it and the clause it is
meant for, or a group of conditions in parentheses. The operator of a group is
kept, but nothing is written for it. -/
inductive Criterion where
  | leaf (connective : Connective) (clause : Clause) (test : Test)
  | group (connective : Connective) (clause : Clause) (operator : Text) (inner : List Criterion)

/-- What a caller can name: a column, or a group of conditions. -/
inductive Field where
  | column (c : Column)
  | group (inner : List Criterion)

inductive Operand where
  | value (v : Value)
  | list (vs : List Value)
  | field (other : Field)

/-- The column a field is; a group is none. -/
def Field.column? : Field → Option Column
  | .column c => some c
  | .group _ => none

/-- The SQL text of a field, which must be a column. -/
def Field.text (p : TablePrefix) : Field → Except Error Text
  | .column c => .ok (c.text p)
  | .group _ => .error (.criterion .groupAsColumn)

namespace Criterion

/-- What joins a condition to the one before it. -/
def connective : Criterion → Connective
  | .leaf j _ _ | .group j _ _ _ => j

/-- The clause a condition is meant for. -/
def clause : Criterion → Clause
  | .leaf _ k _ | .group _ k _ _ => k

def operator : Criterion → Text
  | .leaf _ _ t => t.operator
  | .group _ _ op _ => op

def isGroup : Criterion → Bool
  | .leaf .. => false
  | .group .. => true

/-- The test of a column, an operator that is not empty, and an operand. -/
def testOf (c : Column) (op : Text) : Option Operand → Except Error Test
  | none => .ok (.unary c op)
  | some (.value v) => .ok (.compare c op v)
  | some (.list vs) => .ok (.among c op vs)
  | some (.field (.column other)) => .ok (.columns c op other)
  | some (.field (.group _)) => .error (.criterion .groupAsOperand)

/-- The condition of a field, an operator and an operand. Raw SQL needs neither
operator nor operand; blanks around an operator do not count. -/
def make (field : Field) (operator : Text) (operand : Option Operand) (j : Connective)
    (k : Clause) : Except Error Criterion :=
  let op := Text.trim operator
  match field, operand with
  | .group inner, none => .ok (.group j k op inner)
  | .group _, some _ => .error (.criterion .groupWithOperand)
  | .column _, some (.field (.group _)) => .error (.criterion .groupAsOperand)
  | .column c, operand =>
    if op.isEmpty then
      match c, operand with
      | .raw f, none => .ok (.leaf j k (.literal f))
      | _, _ => .error (.criterion .blankOperator)
    else do return .leaf j k (← testOf c op operand)

def raw (f : Fragment) (j : Connective) (k : Clause) : Criterion := .leaf j k (.literal f)

def nested (inner : List Criterion) (j : Connective) (k : Clause) : Criterion :=
  .group j k [] inner

end Criterion

end BoundSql
