/-
An executor that answers from a script, for trying out queries without a
database.
-/
import BoundSql.Run.Basic

namespace BoundSql

/-- The answers of a scripted executor: every read gets `rows`, the n-th query
if it is a write gets the n-th of `affected`, which starts over at its end, and
the query with the number `failOn` fails. -/
structure Script where
  rows : List Json.Members := []
  affected : List UInt64 := []
  failOn : Option Nat := none
  message : Text := []
  deriving Inhabited

/-- The answer to the last of the queries received, unless it is to fail. -/
def Script.answer {α : Type} (s : Script) (value : Nat → α) (received : List Query) :
    Except Error α :=
  if s.failOn = some received.length then .error (.execution (.reported s.message))
  else .ok (value received.length)

def Script.executor (s : Script) : Executor where
  read := s.answer fun _ => s.rows
  write := s.answer fun n => s.affected[(n - 1) % s.affected.length]?.getD 0

end BoundSql
