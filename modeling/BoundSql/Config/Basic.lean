/-
The configuration of a builder: a table prefix, and how much SQL a log event
shows.
-/
import BoundSql.TablePrefix

namespace BoundSql

structure Config where
  tablePrefix : Option Text := none
  maxLoggedSql : Option Nat := some 200
  deriving DecidableEq, Inhabited

namespace Config

/-- With a table prefix; the empty text is no prefix. -/
def withTablePrefix (c : Config) (t : Text) : Config :=
  { c with tablePrefix := if t.isEmpty then none else some t }

def withoutTablePrefix (c : Config) : Config := { c with tablePrefix := none }

/-- With a limit in bytes to the SQL a log event shows. -/
def withMaxLoggedSql (c : Config) (limit : Nat) : Config := { c with maxLoggedSql := some limit }

def withoutLogLimit (c : Config) : Config := { c with maxLoggedSql := none }

def toTablePrefix (c : Config) : TablePrefix := .ofOption c.tablePrefix

end Config

end BoundSql
