/-
The SQL of conditions.

Each condition becomes a predicate, a fragment without its connective. A list
is its predicates with the connectives between them; in front of the first one
only the NOT of its connective stays. A group is its list in parentheses, and
a group whose list is empty text is left out.
-/
import BoundSql.Criterion.Basic

namespace BoundSql

open Fragment (ofText)

/-! ## One condition -/

/-- Whether an operator has NOT among its words. -/
def hasNot (operator : Text) : Bool := (Text.words (Text.upper operator)).contains "NOT".toList

/-- Whether an operator has BETWEEN in it. -/
def hasBetween (operator : Text) : Bool := Text.occurs "BETWEEN" (Text.upper operator)

/-- The predicate of a column and a list of values. BETWEEN takes two values
joined by AND. No values at all match nothing, or everything under NOT; they
are an error for BETWEEN. -/
def listPredicate (column operator : Text) (values : List Value) : Except Error Fragment :=
  match hasBetween operator, values with
  | true, [low, high] =>
    .ok (ofText (column ++ " " ++ operator ++ " ") ++ low.fragment ++ ofText " AND " ++
      high.fragment)
  | true, [] => .error (.criterion (.twoValuesNeeded operator column))
  | false, [] => .ok (ofText (if hasNot operator then "1=1" else "1=0"))
  | _, values =>
    .ok (ofText (column ++ " " ++ operator ++ " (") ++
      Fragment.joined ", " (values.map Value.fragment) ++ ofText ")")

def Test.fragment (p : TablePrefix) : Test → Except Error Fragment
  | .literal f => .ok (ofText f.inlined)
  | .unary c op => .ok (ofText (c.text p ++ " " ++ op))
  | .compare c op v => .ok (ofText (c.text p ++ " " ++ op ++ " ") ++ v.fragment)
  | .among c op vs => listPredicate (c.text p) op vs
  | .columns c op other => .ok (ofText (c.text p ++ " " ++ op ++ " " ++ other.text p))

/-! ## Lists and groups -/

/-- A predicate and what joins it to the one before it. -/
structure Predicate where
  connective : Connective
  fragment : Fragment

/-- A predicate at the start of a list. -/
def Predicate.first (p : Predicate) : Fragment :=
  if p.connective.negates then ofText "NOT " ++ p.fragment else p.fragment

/-- A predicate behind another one. -/
def Predicate.next (p : Predicate) : Fragment :=
  ofText (p.connective.text ++ " ") ++ p.fragment

/-- Predicates one after the other, without blanks at the ends. -/
def conjoined : List Predicate → Fragment
  | [] => .empty
  | p :: rest => (Fragment.joined " " (p.first :: rest.map Predicate.next)).trim

/-- The predicate of a group, unless its list is empty text. -/
def groupPredicate (inner : Fragment) : Option Fragment :=
  if inner.sql.isEmpty then none else some (ofText "(" ++ inner ++ ofText ")")

mutual

/-- The predicate of a condition, if it has one. -/
def Criterion.predicate? (p : TablePrefix) : Criterion → Except Error (Option Predicate)
  | .leaf j _ t => do return some ⟨j, ← t.fragment p⟩
  | .group j _ _ inner => do
    return (groupPredicate (conjoined (← Criterion.predicates p inner))).map (⟨j, ·⟩)

def Criterion.predicates (p : TablePrefix) : List Criterion → Except Error (List Predicate)
  | [] => .ok []
  | c :: rest => do
    let first ← c.predicate? p
    let others ← Criterion.predicates p rest
    return first.toList ++ others

end

/-- The SQL of a list of conditions; the empty list is the empty text. -/
def Criterion.render (p : TablePrefix) (cs : List Criterion) : Except Error Fragment :=
  return conjoined (← Criterion.predicates p cs)

end BoundSql
