/-
The compact text of JSON values: no blanks, members in the order they are
stored.
-/
import BoundSql.Json.Value
import BoundSql.Number.Hexadecimal
import BoundSql.Number.Shortest

namespace BoundSql.Json

/-- A character inside a JSON string. Quotes, backslashes and the characters
below U+0020 are escaped, all others stand for themselves. -/
def escapeChar (c : Char) : Text :=
  match c with
  | '\x22' => "\\\""
  | '\\' => "\\\\"
  | '\x08' => "\\b"
  | '\x0c' => "\\f"
  | '\n' => "\\n"
  | '\r' => "\\r"
  | '\t' => "\\t"
  | c =>
    if c.toNat < 0x20 then "\\u00" ++ [hexDigit (c.toNat / 16), hexDigit (c.toNat % 16)]
    else [c]

def stringText (t : Text) : Text := '\x22' :: t.flatMap escapeChar ++ ['\x22']

/-- The layout of floating-point numbers: positional from 0.00001 up to below
10^16, always with a point, and of two equally near candidates the even one. -/
def numberLayout : Shortest.Layout := ⟨.toEven, fun e => -5 ≤ e && e < 16, true⟩

/-- A floating-point number. JSON has no others than the finite ones; the rest
is written as null. -/
def floatText : Binary64 → Text
  | .finite negative m p _ => Binary64.finiteText numberLayout negative m p
  | _ => "null"

def Number.text : Number → Text
  | .natural n => natText n.toNat
  | .negative i => intText i.toInt
  | .float x => floatText x

mutual

/-- The compact text of a value. -/
def Value.text : Value → Text
  | .null => "null"
  | .bool true => "true"
  | .bool false => "false"
  | .number n => n.text
  | .string t => stringText t
  | .array items => "[" ++ itemsText items ++ "]"
  | .object members => ['\x7b'] ++ membersText members ++ ['\x7d']

/-- The values of an array with commas between. -/
def itemsText : List Value → Text
  | [] => []
  | [v] => v.text
  | v :: w :: rest => v.text ++ "," ++ itemsText (w :: rest)

/-- The members of an object with commas between. -/
def membersText : List (Text × Value) → Text
  | [] => []
  | [(k, v)] => stringText k ++ ":" ++ v.text
  | (k, v) :: m :: rest => stringText k ++ ":" ++ v.text ++ "," ++ membersText (m :: rest)

end

end BoundSql.Json
