/-
Running queries.

An `Executor` answers each query from all the queries it has received, so it
may have any state a database has. A `Run` is a computation that sends queries
and logs events. The `Session` keeps both in the order in which they happen, and
keeps them when the run fails.
-/
import BoundSql.Builder.Basic
import BoundSql.Json.Writer
import BoundSql.Run.Event

namespace BoundSql

/-- What runs queries. It is given the queries received so far, the one to
answer last: a read is answered with rows, or where one row is enough with the
first if there is one, a write with the number of rows. -/
structure Executor where
  read : List Query → Except Error (List Json.Members)
  readFirst : List Query → Except Error (Option Json.Members) := fun received =>
    return (← read received).head?
  write : List Query → Except Error UInt64

/-- What happens in a session: an event is logged, or the executor receives a
query. -/
inductive Entry where
  | logged (e : Event)
  | received (q : Query)

namespace Entry

def event? : Entry → Option Event
  | .logged e => some e
  | .received _ => none

def query? : Entry → Option Query
  | .logged _ => none
  | .received q => some q

end Entry

/-- All that has happened, in order. -/
structure Session where
  history : List Entry := []
  deriving Inhabited

namespace Session

/-- The queries the executor has received. -/
def sent (s : Session) : List Query := s.history.filterMap Entry.query?

def events (s : Session) : List Event := s.history.filterMap Entry.event?

def add (s : Session) (e : Entry) : Session := ⟨s.history ++ [e]⟩

def log (s : Session) (e : Event) : Session := s.add (.logged e)

def send (s : Session) (q : Query) : Session := s.add (.received q)

end Session

/-- A computation in a session that may fail. -/
abbrev Run (α : Type) := ExceptT Error (StateM Session) α

namespace Run

def eval {α : Type} (r : Run α) (s : Session) : Except Error α × Session :=
  StateT.run (ExceptT.run r) s

/-- A result that does not depend on the session, nor changes it. -/
def ofExcept {α : Type} (x : Except Error α) : Run α := ExceptT.mk (pure x)

/-! ## Compiling -/

/-- A query that is compiled; logs it once it is there. -/
def compiled (c : Config) (x : Except Error Query) : Run Query := do
  let q ← ofExcept x
  modify (·.log (.ofCompiled c q))
  return q

/-- The query of a request. -/
def query (b : Builder) (r : Builder.Request) : Run Query := compiled b.config (b.query r)

/-- The inserts of rows, compiled one after the other. -/
def insertRows (c : Config) (st : Statements) (mode : InsertMode) : List Row → Run (List Query)
  | [] => return []
  | row :: rest => do
    let q ← compiled c (st.insertRow c.toTablePrefix row mode)
    return q :: (← insertRows c st mode rest)

/-- The inserts of several rows with the same columns. -/
def insertQueries (b : Builder) (rows : List Row) (mode : InsertMode) : Run (List Query) := do
  let st ← ofExcept b.checked
  let insertion ← ofExcept (Insertion.batch rows)
  insertRows b.config st mode insertion.rows

/-- The rows selected, as a fragment to use inside another query. -/
def subquery (b : Builder) (asName : Text) : Run Fragment :=
  return (← query b .select).subquery asName

/-! ## Executing -/

/-- Sends a query and takes the executor's answer. -/
def send {α : Type} (c : Config) (answer : List Query → Except Error α) (q : Query) :
    Run α := do
  modify (·.log (.ofExecuting c q))
  modify (·.send q)
  match answer (← get).sent with
  | .ok a => return a
  | .error e => do
    modify (·.log (.ofFailed c q e))
    throw e

/-- Sends queries in order, up to the first that fails, and adds up the numbers
of rows. -/
def sendAll (c : Config) (write : List Query → Except Error UInt64) : List Query → Run UInt64
  | [] => return 0
  | q :: rest => do
    let n ← send c write q
    return n + (← sendAll c write rest)

end Run

end BoundSql
