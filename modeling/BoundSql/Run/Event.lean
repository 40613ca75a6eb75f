/-
What is logged: one event for each query compiled, sent, or failed.

An event shows the SQL of its query up to the configured number of bytes, cut
between two characters and with `...` for what is missing.
-/
import BoundSql.Config.Basic
import BoundSql.Query.Basic
import BoundSql.Text.Bytes

namespace BoundSql

/-- SQL as a log event shows it. -/
def shownSql (limit : Option Nat) (sql : Text) : Text :=
  match limit with
  | none => sql
  | some n => if Text.byteSize sql ≤ n then sql else Text.firstBytes n sql ++ "..."

inductive Event where
  | compiled (kind : QueryKind) (bindings : Nat) (sql : Text)
  | executing (kind : QueryKind) (bindings : Nat) (sql : Text)
  | failed (kind : QueryKind) (sql : Text) (cause : Error)
  deriving DecidableEq

namespace Event

def ofCompiled (c : Config) (q : Query) : Event :=
  .compiled q.kind q.bindings.length (shownSql c.maxLoggedSql q.sql)

def ofExecuting (c : Config) (q : Query) : Event :=
  .executing q.kind q.bindings.length (shownSql c.maxLoggedSql q.sql)

def ofFailed (c : Config) (q : Query) (cause : Error) : Event :=
  .failed q.kind (shownSql c.maxLoggedSql q.sql) cause

def fields : Event → List (Text × Text)
  | .compiled kind n sql =>
    [("level", "DEBUG"), ("query_type", kind.label), ("param_count", natText n), ("sql", sql)]
  | .executing kind n sql =>
    [("level", "TRACE"), ("message", "executing query"), ("query_type", kind.label),
      ("param_count", natText n), ("sql", sql)]
  | .failed kind sql cause =>
    [("level", "WARN"), ("message", "query failed"), ("query_type", kind.label), ("sql", sql),
      ("error", cause.message)]

end Event

end BoundSql
