/-
Conditions as a caller asks for them, before they are checked.

A `Condition` is built into a `Criterion` for the clause it is asked for, and
so are the conditions inside a group. The first one refused, in the order of
the text, is the error of the whole. A criterion can also be handed in as it is;
it keeps the clause it was made for.
-/
import BoundSql.Statement.Basic

namespace BoundSql

/-- A condition asked for. `given` is a criterion handed in ready-made, or the
error of one that could not be made. -/
inductive Condition where
  | test (connective : Connective) (field : Field) (operator : Text) (operand : Option Operand)
  | literal (connective : Connective) (fragment : Fragment)
  | group (connective : Connective) (inner : List Condition)
  | given (criterion : Except Error Criterion)
  | absent

namespace Condition

/-! ## Ways to ask -/

def compare (j : Connective) (field : Field) (operator : Text) (v : Value) : Condition :=
  .test j field operator (some (.value v))

/-- A comparison with a value, or no condition if there is no value. -/
def compareSome (field : Field) (operator : Text) : Option Value → Condition
  | some v => compare .and field operator v
  | none => .absent

def columns (j : Connective) (field : Field) (operator : Text) (other : Field) : Condition :=
  .test j field operator (some (.field other))

def isIn (j : Connective) (field : Field) (vs : List Value) : Condition :=
  .test j field "IN" (some (.list vs))

def isNotIn (j : Connective) (field : Field) (vs : List Value) : Condition :=
  .test j field "NOT IN" (some (.list vs))

def between (j : Connective) (field : Field) (low high : Value) : Condition :=
  .test j field "BETWEEN" (some (.list [low, high]))

def notBetween (j : Connective) (field : Field) (low high : Value) : Condition :=
  .test j field "NOT BETWEEN" (some (.list [low, high]))

def isNull (j : Connective) (field : Field) : Condition := .test j field "IS NULL" none

def isNotNull (j : Connective) (field : Field) : Condition := .test j field "IS NOT NULL" none

/-! ## Checking -/

mutual

/-- The criterion of a condition in a clause, if it is not absent. -/
def criterion? (k : Clause) : Condition → Except Error (Option Criterion)
  | .test j field operator operand => do return some (← Criterion.make field operator operand j k)
  | .literal j f => .ok (some (.raw f j k))
  | .group j inner => do return some (.nested (← criteria k inner) j k)
  | .given criterion => do return some (← criterion)
  | .absent => .ok none

def criteria (k : Clause) : List Condition → Except Error (List Criterion)
  | [] => .ok []
  | c :: rest => do
    let first ← c.criterion? k
    let others ← criteria k rest
    return first.toList ++ others

end

end Condition

/-! ## Joins -/

/-- A part of a join as a caller asks for it: a name for the joined table, or a
condition on what is joined. -/
inductive JoinPart where
  | named (asName : Text)
  | on (connective : Connective) (left : Field) (operator : Text) (right : Operand)

namespace JoinPart

/-- The name for the joined table; the last one counts. -/
def asName (parts : List JoinPart) : Option Text :=
  parts.foldl (fun found part => match part with | .named t => some t | .on .. => found) none

/-- The conditions among the parts of a join. -/
def conditions (parts : List JoinPart) : List Condition :=
  parts.filterMap fun
    | .named _ => none
    | .on j left operator right => some (.test j left operator (some right))

end JoinPart

/-- A join from its parts. A condition refused comes before a table refused. -/
def Join.ofParts (kind : JoinKind) (table : Field) (parts : List JoinPart) : Except Error Join := do
  let conditions ← Condition.criteria .joinOn (JoinPart.conditions parts)
  let table ← TableRef.make table (JoinPart.asName parts)
  Join.make table kind conditions

end BoundSql
