/-
TOML numbers, truth values, dates and times.
-/
import BoundSql.Number.Decimal
import BoundSql.Number.Hexadecimal
import BoundSql.Toml.Table

namespace BoundSql.Toml

/-- The digits of a run without its underscores, each of which must stand
between two digits. -/
def digitRun? (isDigit : Char → Bool) (t : Text) : Option Text :=
  let parts := Text.splitWhere (· == '_') t
  if parts.all fun part => !part.isEmpty && part.all isDigit then some parts.flatten else none

/-- The digits of a decimal run, where only zero itself begins with a zero. -/
def wholeRun? (t : Text) : Option Text := do
  let ds ← digitRun? Char.isDigit t
  if 1 < ds.length ∧ ds.head? = some '0' then none else some ds

/-- The number of digits in a base up to sixteen. -/
def numberIn? (base : Nat) (t : Text) : Option Nat := do
  let ds ← digitRun? (fun c => ((hexValue? c).map (decide <| · < base)).getD false) t
  ds.foldl (fun n c => do return base * (← n) + (← hexValue? c)) (some 0)

/-- Reads an integer: decimal with an optional sign, or after `0x`, `0o` or
`0b` in another base. Integers past 128 bits are refused. -/
def integer? (t : Text) : Option Int := do
  let i : Int ← match t with
    | '0' :: 'x' :: rest => (numberIn? 16 rest).map Int.ofNat
    | '0' :: 'o' :: rest => (numberIn? 8 rest).map Int.ofNat
    | '0' :: 'b' :: rest => (numberIn? 2 rest).map Int.ofNat
    | t => do
      let (negative, t) := Decimal.takeSign t
      let n := natOfDigits (← wholeRun? t)
      pure (if negative then -(n : Int) else n)
  if -(pow2 127 : Int) ≤ i ∧ i < pow2 128 then some i else none

/-- Reads a floating-point number: a whole part with a fraction, an exponent or
both, or one of the names `inf` and `nan`. One too large for the format is
refused. -/
def float? (t : Text) : Option Binary64 := do
  let (negative, rest) := Decimal.takeSign t
  if rest = "inf" then return .infinite negative
  if rest = "nan" then return .nan
  let isPart (c : Char) : Bool := c.isDigit || c == '_'
  let _ ← wholeRun? (rest.takeWhile isPart)
  let exponent ← match rest.dropWhile isPart with
    | '.' :: rest => do
      let _ ← digitRun? Char.isDigit (rest.takeWhile isPart)
      pure (rest.dropWhile isPart)
    | [] => none
    | rest => pure rest
  match exponent with
  | [] => pure ()
  | c :: rest =>
    if c != 'e' && c != 'E' then none
    let _ ← digitRun? Char.isDigit (Decimal.takeSign rest).2
  let x := (← Decimal.ofText? (t.filter (· != '_'))).toBinary .ofRatio
  if x.isFinite then some x else none

/-! ## Dates and times -/

def twoDigits? (a b : Char) : Option Nat :=
  if a.isDigit && b.isDigit then some (natOfDigits [a, b]) else none

def daysOf (year month : Nat) : Nat :=
  if month = 2 then
    if year % 4 = 0 ∧ (year % 100 ≠ 0 ∨ year % 400 = 0) then 29 else 28
  else if month = 4 ∨ month = 6 ∨ month = 9 ∨ month = 11 then 30
  else 31

/-- What follows a date at the start of a text. -/
def afterDate? : Text → Option Text
  | a :: b :: c :: d :: '-' :: e :: f :: '-' :: g :: h :: rest => do
    let year := 100 * (← twoDigits? a b) + (← twoDigits? c d)
    let month ← twoDigits? e f
    let day ← twoDigits? g h
    if 1 ≤ month ∧ month ≤ 12 ∧ 1 ≤ day ∧ day ≤ daysOf year month then some rest else none
  | _ => none

/-- What follows the seconds of a time, which may be left out. -/
def afterSeconds? : Text → Option Text
  | ':' :: a :: b :: rest => do
    if 60 < (← twoDigits? a b) then none
    match rest with
    | '.' :: rest =>
      if (rest.takeWhile Char.isDigit).isEmpty then none else some (rest.dropWhile Char.isDigit)
    | rest => some rest
  | rest => some rest

/-- What follows a time at the start of a text. -/
def afterTime? : Text → Option Text
  | a :: b :: ':' :: c :: d :: rest => do
    if 23 < (← twoDigits? a b) ∨ 59 < (← twoDigits? c d) then none
    afterSeconds? rest
  | _ => none

/-- Whether a text is nothing, or a distance from universal time. -/
def isOffset : Text → Bool
  | [] => true
  | ['Z'] | ['z'] => true
  | [s, a, b, ':', c, d] =>
    (s == '+' || s == '-') && ((twoDigits? a b).map (decide <| · ≤ 23)).getD false &&
      ((twoDigits? c d).map (decide <| · ≤ 59)).getD false
  | _ => false

/-- Whether a text is a date, a time, or both, perhaps with an offset. -/
def isDateTime (t : Text) : Bool :=
  match afterDate? t with
  | some [] => true
  | some (c :: rest) =>
    (c == 'T' || c == 't' || c == ' ') && ((afterTime? rest).map isOffset).getD false
  | none => afterTime? t == some []

/-! ## Scalars -/

/-- The characters of numbers, names, dates and times. -/
def isScalarChar (c : Char) : Bool :=
  c.isAlphanum || c == '+' || c == '-' || c == '_' || c == '.' || c == ':'

/-- The text of a scalar at the start of a text, and the rest. A space may
stand between a date and a time. -/
def takeScalar (t : Text) : Text × Text :=
  let word := t.takeWhile isScalarChar
  match t.dropWhile isScalarChar with
  | ' ' :: c :: rest =>
    if afterDate? word == some [] && c.isDigit then
      (word ++ ' ' :: (c :: rest).takeWhile isScalarChar, (c :: rest).dropWhile isScalarChar)
    else (word, ' ' :: c :: rest)
  | rest => (word, rest)

def scalar? (t : Text) : Option Value :=
  if t = "true" then some (.boolean true)
  else if t = "false" then some (.boolean false)
  else (integer? t).map .integer <|> (float? t).map .float <|>
    (if isDateTime t then some (.dateTime t) else none)

end BoundSql.Toml
