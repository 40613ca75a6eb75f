/-
The prefix in front of table names.

Tables always get it. A field gets it on its table part, by a rule on its
letters: a word of letters, digits, `_` and `.`, with exactly one point, that
does not begin with the prefix already. So `*`, function calls and
`schema.table.column` stay as they are.
-/
import BoundSql.Json.Value

namespace BoundSql

/-- A prefix for table names, or none. -/
structure TablePrefix where
  text : Option Text := none
  deriving DecidableEq, Inhabited

namespace TablePrefix

/-- A prefix from its text; the empty text is no prefix. -/
def ofText (t : Text) : TablePrefix := ⟨if t.isEmpty then none else some t⟩

def ofOption : Option Text → TablePrefix
  | some t => ofText t
  | none => {}

/-- The characters of names that fields are made of. -/
def isNameChar (c : Char) : Bool := c.isAlphanum || c == '_' || c == '.'

/-- Whether a text has the form `table.column`. -/
def isQualified (t : Text) : Bool := !t.isEmpty && t.all isNameChar && t.count '.' == 1

/-- A table name with the prefix. -/
def table (p : TablePrefix) (name : Text) : Text := p.text.getD [] ++ name

/-- A field with the prefix on its table part. -/
def field (p : TablePrefix) (name : Text) : Text :=
  match p.text with
  | none => name
  | some t => if isQualified name && !t.isPrefixOf name then t ++ name else name

def toJson (p : TablePrefix) : Json.Value :=
  .object [("prefix", match p.text with | some t => .string t | none => .null)]

end TablePrefix

end BoundSql
