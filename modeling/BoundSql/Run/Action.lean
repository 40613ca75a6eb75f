/-
What a builder can be run for, and what comes back.
-/
import BoundSql.Run.Basic

namespace BoundSql

inductive Action where
  | rows
  | firstRow
  | count
  | aggregate (fn : Aggregate) (field : Field)
  | insert (row : Row)
  | insertAll (rows : List Row)
  | update (row : Row)
  | delete

/-- What a run comes back with: rows, perhaps a row, perhaps a value, or a
number. -/
inductive Answer where
  | rows (rs : List Json.Members)
  | row (r : Option Json.Members)
  | value (v : Option Json.Value)
  | number (n : UInt64)

/-- The natural number a count came back as; nothing and null count as zero. -/
def countOf : Option Json.Value → Except Error UInt64
  | none | some .null => .ok 0
  | some (.number n) =>
    match n.toUInt64? with
    | some k => .ok k
    | none => .error (.execution (.noCount n.text))
  | some (.string t) =>
    match unsigned? t with
    | some k => .ok k
    | none => .error (.execution (.noCount ("'" ++ t ++ "'")))
  | some v => .error (.execution (.noCount v.text))

namespace Run

/-- The value of an aggregate: what the first row has under `field`. -/
def aggregate (x : Executor) (b : Builder) (fn : Aggregate) (field : Field) :
    Run (Option Json.Value) := do
  let row ← send b.config x.readFirst (← query b (.aggregate fn field))
  return row.bind (Json.Members.get? · "field")

def action (x : Executor) (b : Builder) : Action → Run Answer
  | .rows => return .rows (← send b.config x.read (← query b .select))
  | .firstRow => do
    let one := b.apply (.limit 1)
    return .row (← send b.config x.readFirst (← query one .select))
  | .aggregate fn field => return .value (← aggregate x b fn field)
  | .count => do
    let value ← aggregate x b .count (.column (.name "*"))
    return .number (← ofExcept (countOf value))
  | .insert row => return .number (← send b.config x.write (← query b (.insert row .insert)))
  | .insertAll rows =>
    return .number (← sendAll b.config x.write (← insertQueries b rows .insert))
  | .update row => return .number (← send b.config x.write (← query b (.update row)))
  | .delete => return .number (← send b.config x.write (← query b .delete))

end Run

end BoundSql
