/-
TOML strings: basic ones, which know escapes, and literal ones, which do not;
both on one line or on several.
-/
import BoundSql.Number.Hexadecimal

namespace BoundSql.Toml

/-- The characters that may stand in a line: all but control characters, and
the tab. -/
def isLineChar (c : Char) : Bool := c == '\t' || (0x20 ≤ c.toNat && c.toNat != 0x7F)

def isSpace (c : Char) : Bool := c == ' ' || c == '\t'

/-- The text behind a line end, if it starts with one. -/
def afterNewline? : Text → Option Text
  | '\n' :: rest => some rest
  | '\r' :: '\n' :: rest => some rest
  | _ => none

/-- The character of a code point in hexadecimal digits; a surrogate is
none. -/
def hexChar? (ds : Text) : Option Char := do
  let n ← hexNumber? ds
  if n < 0xD800 ∨ (0xDFFF < n ∧ n ≤ 0x10FFFF) then some (.ofNat n) else none

/-- The character a one-letter escape stands for. -/
def escaped? : Char → Option Char
  | 'b' => some '\x08'
  | 't' => some '\t'
  | 'n' => some '\n'
  | 'f' => some '\x0c'
  | 'r' => some '\r'
  | 'e' => some '\x1b'
  | '\x22' => some '\x22'
  | '\\' => some '\\'
  | _ => none

/-- A character in front of what has been read. -/
def before (c : Char) : Text × Text → Text × Text
  | (t, rest) => (c :: t, rest)

/-- Reads a basic string behind its quote: its text, and the rest. -/
def readBasic : Text → Option (Text × Text)
  | [] => none
  | '\x22' :: rest => some ([], rest)
  | '\\' :: 'x' :: a :: b :: rest => do
    return before (← hexChar? [a, b]) (← readBasic rest)
  | '\\' :: 'u' :: a :: b :: c :: d :: rest => do
    return before (← hexChar? [a, b, c, d]) (← readBasic rest)
  | '\\' :: 'U' :: a :: b :: c :: d :: e :: f :: g :: h :: rest => do
    return before (← hexChar? [a, b, c, d, e, f, g, h]) (← readBasic rest)
  | '\\' :: c :: rest => do return before (← escaped? c) (← readBasic rest)
  | c :: rest => if isLineChar c then (readBasic rest).map (before c) else none

/-- Reads a literal string behind its quote: its text, and the rest. -/
def readLiteral : Text → Option (Text × Text)
  | [] => none
  | c :: rest =>
    if c = '\x27' then some ([], rest)
    else if isLineChar c then (readLiteral rest).map (before c)
    else none

/-- Reads a basic string of several lines behind its quotes. Line ends stay as
they are written. A backslash at the end of a line hides the line end and all
blanks up to the next character (`hidden`). Of five quotes the last three close
the string. -/
def readLongBasic (hidden : Bool) : Text → Option (Text × Text)
  | [] => none
  | '\x22' :: '\x22' :: '\x22' :: '\x22' :: '\x22' :: rest => some ("\"\"", rest)
  | '\x22' :: '\x22' :: '\x22' :: '\x22' :: rest => some ("\"", rest)
  | '\x22' :: '\x22' :: '\x22' :: rest => some ([], rest)
  | '\r' :: '\n' :: rest =>
    if hidden then readLongBasic true rest
    else (readLongBasic false rest).map fun r => before '\r' (before '\n' r)
  | '\\' :: 'x' :: a :: b :: rest => do
    return before (← hexChar? [a, b]) (← readLongBasic false rest)
  | '\\' :: 'u' :: a :: b :: c :: d :: rest => do
    return before (← hexChar? [a, b, c, d]) (← readLongBasic false rest)
  | '\\' :: 'U' :: a :: b :: c :: d :: e :: f :: g :: h :: rest => do
    return before (← hexChar? [a, b, c, d, e, f, g, h]) (← readLongBasic false rest)
  | '\\' :: c :: rest =>
    if (afterNewline? ((c :: rest).dropWhile isSpace)).isSome then readLongBasic true (c :: rest)
    else do return before (← escaped? c) (← readLongBasic false rest)
  | c :: rest =>
    if hidden && (isSpace c || c == '\n') then readLongBasic true rest
    else if isLineChar c || c == '\n' then (readLongBasic false rest).map (before c)
    else none

/-- Reads a literal string of several lines behind its quotes. Line ends stay as
they are written. -/
def readLongLiteral : Text → Option (Text × Text)
  | [] => none
  | '\x27' :: '\x27' :: '\x27' :: '\x27' :: '\x27' :: rest => some (['\x27', '\x27'], rest)
  | '\x27' :: '\x27' :: '\x27' :: '\x27' :: rest => some (['\x27'], rest)
  | '\x27' :: '\x27' :: '\x27' :: rest => some ([], rest)
  | '\r' :: '\n' :: rest =>
    (readLongLiteral rest).map fun r => before '\r' (before '\n' r)
  | c :: rest =>
    if isLineChar c || c == '\n' then (readLongLiteral rest).map (before c) else none

/-- Reads a string at the start of a text. A line end right behind the quotes
of a string of several lines does not count. -/
def readQuoted : Text → Option (Text × Text)
  | '\x22' :: '\x22' :: '\x22' :: rest => readLongBasic false ((afterNewline? rest).getD rest)
  | '\x27' :: '\x27' :: '\x27' :: rest => readLongLiteral ((afterNewline? rest).getD rest)
  | '\x22' :: rest => readBasic rest
  | '\x27' :: rest => readLiteral rest
  | _ => none

end BoundSql.Toml
