/-
JSON text as written, and the value it stands for.

`Document.ofText?` reads the grammar alone. What a document stands for is
decided afterwards: a number may be too large, a `\u` escape may be one half
of a surrogate pair, a key may come twice. A reader that ignores a part of a
document never asks for the value of that part.
-/
import BoundSql.Json.Value
import BoundSql.Number.Hexadecimal

namespace BoundSql.Json

/-! ## Documents -/

/-- One character of a string as written: itself or an escape for it, or a
`\u` escape for a UTF-16 code unit. -/
inductive Letter where
  | char (c : Char)
  | unit (u : Nat)
  deriving DecidableEq

/-- A numeral as written. -/
structure Numeral where
  negative : Bool
  whole : Text
  fraction : Option Text
  exponent : Option Int
  deriving DecidableEq

/-- A JSON text as written. -/
inductive Document where
  | null
  | bool (b : Bool)
  | number (n : Numeral)
  | string (letters : List Letter)
  | array (items : List Document)
  | object (members : List (List Letter × Document))

/-! ## Reading -/

/-- The text from its first character that is no JSON blank. -/
def skipSpace (t : Text) : Text :=
  t.dropWhile fun c => c == ' ' || c == '\n' || c == '\t' || c == '\r'

/-- The character a one-letter escape stands for. -/
def escaped? : Char → Option Char
  | '\x22' => some '\x22'
  | '\\' => some '\\'
  | '/' => some '/'
  | 'b' => some '\x08'
  | 'f' => some '\x0c'
  | 'n' => some '\n'
  | 'r' => some '\r'
  | 't' => some '\t'
  | _ => none

/-- Reads a string behind its opening quote. Control characters must be
escaped. -/
def readString : Text → Option (List Letter × Text)
  | [] => none
  | '\x22' :: rest => some ([], rest)
  | '\\' :: 'u' :: a :: b :: c :: d :: rest => do
    let u ← hexNumber? [a, b, c, d]
    let (letters, rest) ← readString rest
    return (.unit u :: letters, rest)
  | '\\' :: c :: rest => do
    let e ← escaped? c
    let (letters, rest) ← readString rest
    return (.char e :: letters, rest)
  | c :: rest => do
    if c.toNat < 0x20 then none
    let (letters, rest) ← readString rest
    return (.char c :: letters, rest)

/-- The digits at the start of a text, at least one. -/
def takeDigits? (t : Text) : Option (Text × Text) :=
  let ds := t.takeWhile Char.isDigit
  if ds.isEmpty then none else some (ds, t.dropWhile Char.isDigit)

/-- Reads a numeral. A zero in front stands alone. -/
def readNumeral (t : Text) : Option (Numeral × Text) := do
  let (negative, t) := match t with
    | '-' :: rest => (true, rest)
    | t => (false, t)
  let (whole, t) ← match t with
    | '0' :: rest => some (['0'], rest)
    | t => takeDigits? t
  let (fraction, t) ← match t with
    | '.' :: rest => do let (ds, rest) ← takeDigits? rest; pure (some ds, rest)
    | t => pure (none, t)
  let (exponent, t) ← match t with
    | c :: rest =>
      if c == 'e' || c == 'E' then do
        let (minus, rest) := Decimal.takeSign rest
        let (ds, rest) ← takeDigits? rest
        let n : Int := natOfDigits ds
        pure (some (if minus then -n else n), rest)
      else pure (none, c :: rest)
    | [] => pure (none, [])
  return (⟨negative, whole, fraction, exponent⟩, t)

mutual

/-- Reads one document at the start of a text. Each step takes a character or
steps down once, so twice the length of the text is fuel enough. -/
def readDocument : Nat → Text → Option (Document × Text)
  | 0, _ => none
  | n + 1, t =>
    match skipSpace t with
    | 'n' :: 'u' :: 'l' :: 'l' :: rest => some (.null, rest)
    | 't' :: 'r' :: 'u' :: 'e' :: rest => some (.bool true, rest)
    | 'f' :: 'a' :: 'l' :: 's' :: 'e' :: rest => some (.bool false, rest)
    | '\x22' :: rest => do let (letters, rest) ← readString rest; pure (.string letters, rest)
    | '[' :: rest =>
      match skipSpace rest with
      | ']' :: rest => some (.array [], rest)
      | rest => do let (items, rest) ← readItems n rest; pure (.array items, rest)
    | '\x7b' :: rest =>
      match skipSpace rest with
      | '\x7d' :: rest => some (.object [], rest)
      | rest => do let (members, rest) ← readMembers n rest; pure (.object members, rest)
    | rest => do let (numeral, rest) ← readNumeral rest; pure (.number numeral, rest)

/-- Reads the rest of an array behind its bracket or a comma. -/
def readItems : Nat → Text → Option (List Document × Text)
  | 0, _ => none
  | n + 1, t => do
    let (item, rest) ← readDocument n t
    match skipSpace rest with
    | ',' :: rest => do let (items, rest) ← readItems n rest; pure (item :: items, rest)
    | ']' :: rest => pure ([item], rest)
    | _ => none

/-- Reads the rest of an object behind its brace or a comma. -/
def readMembers : Nat → Text → Option (List (List Letter × Document) × Text)
  | 0, _ => none
  | n + 1, t => do
    let '\x22' :: rest := skipSpace t | none
    let (key, rest) ← readString rest
    let ':' :: rest := skipSpace rest | none
    let (item, rest) ← readDocument n rest
    match skipSpace rest with
    | ',' :: rest => do
      let (members, rest) ← readMembers n rest
      pure ((key, item) :: members, rest)
    | '\x7d' :: rest => pure ([(key, item)], rest)
    | _ => none

end

/-- Reads a text that is one document and nothing else. -/
def Document.ofText? (t : Text) : Option Document := do
  let (d, rest) ← readDocument (2 * t.length + 2) t
  if (skipSpace rest).isEmpty then some d else none

/-! ## What a document stands for -/

/-- The text letters stand for. A code unit of a surrogate pair stands for
nothing without its partner. -/
def lettersText? : List Letter → Option Text
  | [] => some []
  | .char c :: rest => (lettersText? rest).map (c :: ·)
  | .unit u :: .unit v :: rest =>
    if 0xD800 ≤ u ∧ u < 0xDC00 then
      if 0xDC00 ≤ v ∧ v < 0xE000 then
        (lettersText? rest).map (.ofNat (0x10000 + (u - 0xD800) * 0x400 + (v - 0xDC00)) :: ·)
      else none
    else if 0xDC00 ≤ u ∧ u < 0xE000 then none
    else (lettersText? (.unit v :: rest)).map (.ofNat u :: ·)
  | .unit u :: rest =>
    if 0xD800 ≤ u ∧ u < 0xE000 then none else (lettersText? rest).map (.ofNat u :: ·)

/-- The number a numeral stands for: an integer where it is written as one and
fits 64 bits, else the nearest floating-point number. Minus zero is a
floating-point number, and one too large for the format stands for nothing. -/
def Numeral.number? (n : Numeral) : Option Number :=
  let natural := natOfDigits n.whole
  let plain := n.fraction.isNone && n.exponent.isNone
  if plain && !n.negative && decide (natural < pow2 64) then some (.natural (.ofNat natural))
  else if plain && n.negative && decide (0 < natural ∧ natural ≤ pow2 63) then
    some (.negative (.ofInt (-natural)))
  else
    let fraction := n.fraction.getD []
    let x := Decimal.toBinary .ofRatio
      ⟨n.negative, natOfDigits (n.whole ++ fraction), n.exponent.getD 0 - fraction.length⟩
    if x.isFinite then some (.float x) else none

mutual

/-- The value a document stands for, if it nests at most `room` deep. -/
def Document.value? : Nat → Document → Option Value
  | _, .null => some .null
  | _, .bool b => some (.bool b)
  | _, .number n => n.number?.map .number
  | _, .string letters => (lettersText? letters).map .string
  | 0, .array _ => none
  | 0, .object _ => none
  | room + 1, .array items => (itemsValue? room items).map .array
  | room + 1, .object members => (membersValue? room members).map (.object ·.sorted)

/-- The values of the items of an array. -/
def itemsValue? : Nat → List Document → Option (List Value)
  | _, [] => some []
  | room, d :: rest => do return (← d.value? room) :: (← itemsValue? room rest)

/-- The members of an object, in the order written. -/
def membersValue? : Nat → List (List Letter × Document) → Option Members
  | _, [] => some []
  | room, (k, d) :: rest => do
    return (← lettersText? k, ← d.value? room) :: (← membersValue? room rest)

end

/-- Reads a JSON value. Values nested 128 deep and deeper are refused. -/
def Value.ofText? (t : Text) : Option Value := do (← Document.ofText? t).value? 127

end BoundSql.Json
