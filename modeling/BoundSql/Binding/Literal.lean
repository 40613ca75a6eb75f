/-
The SQL literal of a binding, as an executor puts it in place of the
placeholder.
-/
import BoundSql.Binding.Basic
import BoundSql.Number.Fixed

namespace BoundSql

/-- A character inside a quoted literal. Quotes, backslashes, the end of line
characters, NUL and U+001A stand behind a backslash, all others for
themselves. -/
def quoteChar (c : Char) : Text :=
  match c with
  | '\\' => "\\\\"
  | '\x27' => "\\'"
  | '\x22' => "\\\""
  | '\x00' => "\\0"
  | '\n' => "\\n"
  | '\r' => "\\r"
  | '\x1a' => "\\Z"
  | c => [c]

def quoted (t : Text) : Text := '\x27' :: t.flatMap quoteChar ++ ['\x27']

/-- The literal of a binding: quoted text, an integer, or a number with six
digits behind the point. -/
def Binding.literal (b : Binding) : Text :=
  if b.isSqlNull then "NULL"
  else match b.kind with
    | .string | .json => quoted b.value.text
    | .bool | .int => intText b.value.integer.toInt
    | .float => b.value.number.fixedText

end BoundSql
