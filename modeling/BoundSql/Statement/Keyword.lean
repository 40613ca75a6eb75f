/-
The words statements choose from: how conditions are joined, which clause they
stand in, the flavours of joins and inserts, directions, aggregate functions,
kinds of queries. Each has the text it is written as, and a reading where
users may spell it.
-/
import BoundSql.Text.Basic

namespace BoundSql

/-! ## Conditions -/

/-- What stands between a condition and the one before it. -/
inductive Connective where
  | and
  | or
  | andNot
  | orNot
  deriving DecidableEq

def Connective.text : Connective → Text
  | .and => "AND"
  | .or => "OR"
  | .andNot => "AND NOT"
  | .orNot => "OR NOT"

/-- Whether a connective negates the condition behind it. -/
def Connective.negates : Connective → Bool
  | .and | .or => false
  | .andNot | .orNot => true

/-- The clause a condition is meant for. -/
inductive Clause where
  | filter
  | having
  | joinOn
  deriving DecidableEq

def Clause.keyword : Clause → Text
  | .filter => "WHERE"
  | .having => "HAVING"
  | .joinOn => "ON"

/-! ## Joins and orderings -/

inductive JoinKind where
  | inner
  | left
  | right
  | cross
  | leftOuter
  | rightOuter
  | fullOuter
  deriving DecidableEq

/-- The words in front of JOIN. -/
def JoinKind.keyword : JoinKind → Text
  | .inner => "INNER"
  | .left => "LEFT"
  | .right => "RIGHT"
  | .cross => "CROSS"
  | .leftOuter => "LEFT OUTER"
  | .rightOuter => "RIGHT OUTER"
  | .fullOuter => "FULL OUTER"

/-- The spellings of join flavours. No word at all is an inner join. -/
def JoinKind.spellings : List (Text × JoinKind) :=
  [("", .inner), ("INNER", .inner), ("LEFT", .left), ("RIGHT", .right), ("CROSS", .cross),
    ("LEFT OUTER", .leftOuter), ("RIGHT OUTER", .rightOuter), ("FULL OUTER", .fullOuter),
    ("OUTER", .fullOuter)]

/-- Reads a join flavour, in any case and with any blanks around its words. -/
def JoinKind.ofText? (t : Text) : Option JoinKind :=
  spellings.lookup (Text.upper (Text.joined " " (Text.words t)))

inductive Direction where
  | ascending
  | descending
  deriving DecidableEq

def Direction.keyword : Direction → Text
  | .ascending => "ASC"
  | .descending => "DESC"

/-- The direction a text asks for: descending if it says so. Any other text,
and no text, sorts ascending. -/
def Direction.ofText : Option Text → Direction
  | some t => if Text.upper (Text.trim t) = "DESC" then .descending else .ascending
  | none => .ascending

/-! ## Kinds of queries -/

inductive InsertMode where
  | insert
  | insertIgnore
  | replace
  deriving DecidableEq

/-- The words in front of INTO. -/
def InsertMode.keyword : InsertMode → Text
  | .insert => "INSERT"
  | .insertIgnore => "INSERT IGNORE"
  | .replace => "REPLACE"

inductive Aggregate where
  | count
  | min
  | max
  | sum
  | avg
  deriving DecidableEq

def Aggregate.function : Aggregate → Text
  | .count => "COUNT"
  | .min => "MIN"
  | .max => "MAX"
  | .sum => "SUM"
  | .avg => "AVG"

inductive QueryKind where
  | select
  | insert
  | insertIgnore
  | replace
  | update
  | delete
  | aggregate
  deriving DecidableEq

namespace QueryKind

def all : List QueryKind :=
  [.select, .insert, .insertIgnore, .replace, .update, .delete, .aggregate]

def name : QueryKind → Text
  | .select => "select"
  | .insert => "insert"
  | .insertIgnore => "insert_ignore"
  | .replace => "replace"
  | .update => "update"
  | .delete => "delete"
  | .aggregate => "aggregate"

/-- The name of a kind in log events. -/
def label : QueryKind → Text
  | .select => "Select"
  | .insert => "Insert"
  | .insertIgnore => "InsertIgnore"
  | .replace => "Replace"
  | .update => "Update"
  | .delete => "Delete"
  | .aggregate => "Aggregate"

/-- Reads a kind by its name, in any case, with blanks around it and spaces
for underscores. -/
def ofText? (t : Text) : Option QueryKind :=
  let name := (Text.lower (Text.trim t)).map fun c => if c = ' ' then '_' else c
  if name = "insertignore" then some .insertIgnore else all.find? fun k => k.name == name

def ofMode : InsertMode → QueryKind
  | .insert => .insert
  | .insertIgnore => .insertIgnore
  | .replace => .replace

end QueryKind

end BoundSql
