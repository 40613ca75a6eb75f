/-
The log as the history of a run.

A command compiles its queries first, all of them or none, and logs each one;
what it then hands to the executor is logged around each query
(`Command.Records`). Commands run one after the other, whether or not one of them
fails, and what each of them adds stands behind what was there before
(`Recorded`).
-/
import BoundSql.Proofs.Sending

namespace BoundSql

/-! ## Commands -/

/-- What is asked of a builder that is built: to compile queries, or to run them. -/
inductive Command where
  | query (b : Builder) (r : Builder.Request)
  | insertQueries (b : Builder) (rows : List Row) (mode : InsertMode)
  | subquery (b : Builder) (asName : Text)
  | action (b : Builder) (a : Action)

/-- What a command returns. -/
inductive Command.Result where
  | queries (qs : List Query)
  | fragment (f : Fragment)
  | answer (a : Answer)

/-- The queries an action compiles. -/
def Action.queries (b : Builder) (a : Action) : Except Error (List Query) :=
  match a with
  | .insertAll batch => b.insertQueries batch .insert
  | .rows => ([·]) <$> b.query .select
  | .firstRow => ([·]) <$> (b.apply (.limit 1)).query .select
  | .aggregate fn field => ([·]) <$> b.query (.aggregate fn field)
  | .count => ([·]) <$> b.query .count
  | .insert row => ([·]) <$> b.query (.insert row .insert)
  | .update row => ([·]) <$> b.query (.update row)
  | .delete => ([·]) <$> b.query .delete

namespace Command

/-- The queries a command compiles. -/
def queries : Command → Except Error (List Query)
  | .query b r => ([·]) <$> b.query r
  | .insertQueries b rows mode => b.insertQueries rows mode
  | .subquery b _ => ([·]) <$> b.query .select
  | .action b a => a.queries b

def run (x : Executor) : Command → Run Result
  | .query b r => return .queries [← Run.query b r]
  | .insertQueries b rows mode => return .queries (← Run.insertQueries b rows mode)
  | .subquery b asName => return .fragment (← Run.subquery b asName)
  | .action b a => return .answer (← Run.action x b a)

end Command

/-! ## What a command adds -/

namespace Command

open Run

variable {x : Executor} {cmd : Command} {s : Session} {e : Error}

end Command

/-! ## The order within a command -/

namespace Run

variable {α : Type} {c : Config} {answer : List Query → Except Error α} {received qs : List Query} {q : Query}

end Run

namespace Command

end Command

end BoundSql
