/-
Queries: SQL text, its bindings, and the kind of query it is.
-/
import BoundSql.Error
import BoundSql.Fragment.Substitution

namespace BoundSql

/-- Reads a kind of query. -/
def QueryKind.parse (t : Text) : Except Error QueryKind :=
  match QueryKind.ofText? t with
  | some kind => .ok kind
  | none => .error (.queryKind (.unknown t))

/-- A query ready to run. -/
structure Query where
  text : Fragment
  kind : QueryKind

namespace Query

/-- The SQL of a query, with placeholders. -/
def sql (q : Query) : Text := q.text.sql

/-- The bindings of a query, in the order of its placeholders. -/
def bindings (q : Query) : List Binding := q.text.bindings

/-- The query in parentheses and named, to be used inside another one. -/
def subquery (q : Query) (asName : Text) : Fragment :=
  ⟨"(" ++ q.sql ++ ") AS " ++ asName, q.bindings⟩

/-- The SQL with every binding in its place, as a database would receive it. -/
def rendered (q : Query) : Text := q.text.rendered

/-- A query as JSON: its text, its bindings, its kind. -/
def toJson (q : Query) : Json.Value :=
  .object [("sql", .string q.sql), ("bindings", .array (q.bindings.map Binding.toJson)),
    ("query_type", .string q.kind.name)]

end Query

end BoundSql
