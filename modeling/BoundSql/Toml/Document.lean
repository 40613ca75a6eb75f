/-
TOML documents.

A document is read line by line into entries, and the entries are put together
into one table. A fault anywhere, in a part that nobody asks for too, makes the
whole text no document; so do keys and values that are nested too deep.
-/
import BoundSql.Toml.Quoted
import BoundSql.Toml.Scalar

namespace BoundSql.Toml

/-! ## Between the tokens -/

def skipSpaces (t : Text) : Text := t.dropWhile isSpace

/-- The text behind blanks, line ends and comments. -/
def skipLines (inComment : Bool) : Text → Option Text
  | [] => some []
  | '\n' :: rest => skipLines false rest
  | '\r' :: '\n' :: rest => skipLines false rest
  | c :: rest =>
    if inComment then if isLineChar c then skipLines true rest else none
    else if isSpace c then skipLines false rest
    else if c = '#' then skipLines true rest
    else some (c :: rest)

/-- The text behind the end of the line, in front of which only blanks and a
comment may stand. -/
def endLine? (t : Text) : Option Text :=
  let rest := match skipSpaces t with
    | '#' :: rest => rest.dropWhile isLineChar
    | rest => rest
  if rest.isEmpty then some [] else afterNewline? rest

/-! ## Keys -/

/-- The characters of keys without quotes. -/
def isBareChar (c : Char) : Bool := c.isAlphanum || c == '_' || c == '-'

/-- Reads one part of a key. -/
def readKeyPart : Text → Option (Text × Text)
  | '\x22' :: rest => readBasic rest
  | '\x27' :: rest => readLiteral rest
  | t =>
    let word := t.takeWhile isBareChar
    if word.isEmpty then none else some (word, t.dropWhile isBareChar)

/-- The most parts a key may have, and the most arrays and inline tables that
may stand in one another. -/
def maxDepth : Nat := 80

/-- Reads a key of at most so many parts, with points between them, and the
blanks behind it. -/
def readKey : Nat → Text → Option (List Text × Text)
  | 0, _ => none
  | n + 1, t => do
    let (part, rest) ← readKeyPart t
    match skipSpaces rest with
    | '.' :: rest => do
      let (parts, rest) ← readKey n (skipSpaces rest)
      pure (part :: parts, rest)
    | rest => pure ([part], rest)

/-- Reads a key and the equals sign behind it, and skips what may stand on
either side of the sign. -/
def readKeyEquals (skip : Text → Option Text) (t : Text) : Option (List Text × Text) := do
  let (key, rest) ← readKey maxDepth t
  match ← skip rest with
  | '=' :: rest => return (key, ← skip rest)
  | _ => none

/-! ## Values -/

mutual

/-- Reads a value at the start of a text, in which at most `room` arrays and
inline tables stand in one another. Each step takes a character or steps down
once, so twice the length of the text is fuel enough. -/
def readValue (room : Nat) : Nat → Text → Option (Value × Text)
  | 0, _ => none
  | n + 1, t =>
    match t with
    | '[' :: rest => do
      guard (0 < room)
      match ← skipLines false rest with
      | ']' :: rest => pure (.array [], rest)
      | rest => do
        let (items, rest) ← readItems (room - 1) n rest
        pure (.array items, rest)
    | '\x7b' :: rest => do
      guard (0 < room)
      match ← skipLines false rest with
      | '\x7d' :: rest => pure (.table [], rest)
      | rest => do
        let (pairs, rest) ← readPairs (room - 1) n rest
        pure (.table (← tableOf? pairs), rest)
    | '\x22' :: _ | '\x27' :: _ => do
      let (s, rest) ← readQuoted t
      pure (.string s, rest)
    | t => do
      let (word, rest) := takeScalar t
      pure (← scalar? word, rest)

/-- Reads the rest of an array behind its bracket or a comma. -/
def readItems (room : Nat) : Nat → Text → Option (List Value × Text)
  | 0, _ => none
  | n + 1, t => do
    let (item, rest) ← readValue room n t
    match ← skipLines false rest with
    | ',' :: rest => do
      match ← skipLines false rest with
      | ']' :: rest => pure ([item], rest)
      | rest => do
        let (items, rest) ← readItems room n rest
        pure (item :: items, rest)
    | ']' :: rest => pure ([item], rest)
    | _ => none

/-- Reads the rest of an inline table behind its brace or a comma. A pair in it
may go over several lines. -/
def readPairs (room : Nat) : Nat → Text → Option (List Entry × Text)
  | 0, _ => none
  | n + 1, t => do
    let (key, rest) ← readKeyEquals (skipLines false) t
    let (v, rest) ← readValue room n rest
    match ← skipLines false rest with
    | ',' :: rest => do
      match ← skipLines false rest with
      | '\x7d' :: rest => pure ([.pair key v], rest)
      | rest => do
        let (pairs, rest) ← readPairs room n rest
        pure (.pair key v :: pairs, rest)
    | '\x7d' :: rest => pure ([.pair key v], rest)
    | _ => none

end

/-! ## Documents -/

/-- Reads a line that is not empty: a header or a key with its value. -/
def readEntry : Text → Option (Entry × Text)
  | '[' :: '[' :: rest => do
    let (path, rest) ← readKey maxDepth (skipSpaces rest)
    match rest with
    | ']' :: ']' :: rest => pure (.elementHeader path, rest)
    | _ => none
  | '[' :: rest => do
    let (path, rest) ← readKey maxDepth (skipSpaces rest)
    match rest with
    | ']' :: rest => pure (.header path, rest)
    | _ => none
  | t => do
    let (key, rest) ← readKeyEquals (some ∘ skipSpaces) t
    let (v, rest) ← readValue maxDepth (2 * rest.length + 2) rest
    pure (.pair key v, rest)

/-- Reads the lines of a document. Each takes a character, so the length of the
text is fuel enough. -/
def readEntries : Nat → Text → Option (List Entry)
  | 0, _ => none
  | n + 1, t => do
    match ← skipLines false t with
    | [] => pure []
    | t => do
      let (entry, rest) ← readEntry t
      return entry :: (← readEntries n (← endLine? rest))

/-- The text without a byte-order mark in front. -/
def withoutMark : Text → Text
  | '\ufeff' :: rest => rest
  | t => t

/-- Reads a document: the members of its table, in the order they first
appear. -/
def documentOf? (t : Text) : Option (List (Text × Value)) := do
  tableOf? (← readEntries (t.length + 1) (withoutMark t))

end BoundSql.Toml
