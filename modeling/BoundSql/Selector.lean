/-
Selectors of values inside JSON columns, written `column->node->node`.
-/
import BoundSql.Error
import BoundSql.TablePrefix

namespace BoundSql

/-- A JSON column and the path of nodes inside it. -/
structure Selector where
  column : Text
  nodes : List Text
  deriving DecidableEq

namespace Selector

/-- The stretches of a text between its arrows. -/
def splitArrows : Text → List Text
  | [] => [[]]
  | '-' :: '>' :: rest => [] :: splitArrows rest
  | c :: rest =>
    match splitArrows rest with
    | [] => [[c]]
    | part :: parts => (c :: part) :: parts

/-- Whether a text is a column and at least one node, none of them blank. -/
def readable (t : Text) : Bool :=
  let parts := splitArrows t
  decide (2 ≤ parts.length) && parts.all fun part => !Text.blank part

/-- A selector of a column and nodes, none of them blank. -/
def ofParts (column : Text) (nodes : List Text) : Except Error Selector :=
  if Text.blank column then .error (.selector .blankColumn)
  else if nodes.isEmpty || nodes.any Text.blank then .error (.selector (.blankNode column))
  else .ok ⟨column, nodes⟩

/-- Reads a selector. Blanks around its parts do not count. -/
def parse (t : Text) : Except Error Selector :=
  if readable t then
    match (splitArrows t).map Text.trim with
    | [] => .error (.selector .blankColumn)
    | column :: nodes => ofParts column nodes
  else .error (.selector (.unreadable t))

def text (s : Selector) : Text := Text.joined "->" (s.column :: s.nodes)

/-- The path `$.node.node`. Nodes such as `tags[2]` are taken as they are. -/
def path (s : Selector) : Text := "$." ++ Text.joined "." s.nodes

/-- The expression for the value as JSON. -/
def extract (s : Selector) (p : TablePrefix) : Text :=
  "JSON_EXTRACT(" ++ p.field s.column ++ ", \"" ++ s.path ++ "\")"

/-- The expression for the value as text. -/
def expression (s : Selector) (p : TablePrefix) : Text :=
  "JSON_UNQUOTE(" ++ s.extract p ++ ")"

end Selector

end BoundSql
