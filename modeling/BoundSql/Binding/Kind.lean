/-
The kinds of bindings and the placeholders they are written as.
-/
import BoundSql.Text.Basic

namespace BoundSql

/-- A format token in SQL text, to be filled with a binding. -/
inductive Placeholder where
  | string
  | integer
  | decimal
  deriving DecidableEq

def Placeholder.letter : Placeholder → Char
  | .string => 's'
  | .integer => 'd'
  | .decimal => 'f'

/-- The token as it stands in SQL text. -/
def Placeholder.text (p : Placeholder) : Text := ['%', p.letter]

/-- How a bound value is to be written. -/
inductive BindingKind where
  | string
  | bool
  | int
  | float
  | json
  deriving DecidableEq

namespace BindingKind

def all : List BindingKind := [.string, .bool, .int, .float, .json]

/-- The placeholder of a kind. Truth values are written as integers, JSON as
a string. -/
def placeholder : BindingKind → Placeholder
  | .string | .json => .string
  | .bool | .int => .integer
  | .float => .decimal

def name : BindingKind → Text
  | .string => "string"
  | .bool => "bool"
  | .int => "int"
  | .float => "float"
  | .json => "json"

/-- The kind of a name, exactly as `name` gives it. -/
def ofName? (t : Text) : Option BindingKind := all.find? fun k => k.name == t

/-- The second names of kinds. -/
def aliases : List (Text × BindingKind) :=
  [("str", .string), ("boolean", .bool), ("integer", .int), ("double", .float)]

/-- Reads a kind by one of its names, in any case and with blanks around. -/
def ofText? (t : Text) : Option BindingKind :=
  let name := Text.lower (Text.trim t)
  ofName? name <|> aliases.lookup name

end BindingKind

end BoundSql
