/-
Scalar values, and what each is read as: text, an integer, a number.

The readings are total. What has no reading of its own gets the one of zero or
of the empty text, and text is read by the number it starts with.
-/
import BoundSql.Binding.Kind
import BoundSql.Json.Writer
import BoundSql.Text.Bytes

namespace BoundSql

/-- A value destined for a placeholder. -/
inductive Scalar where
  | null
  | bool (b : Bool)
  | int (i : Int64)
  | float (x : Binary64)
  | string (t : Text)
  | json (v : Json.Value)

instance : Inhabited Scalar := ⟨.null⟩

/-! ## The number a text starts with -/

/-- The characters an unsigned numeral without exponent is made of. -/
def isNumeralChar (c : Char) : Bool := c.isDigit || c == '.'

/-- The longest start of a text that could hold a numeral: a sign, if there is
one, then digits and points. -/
def numeralRegion : Text → Text
  | [] => []
  | c :: rest =>
    if c == '-' || c == '+' || isNumeralChar c then c :: rest.takeWhile isNumeralChar else []

/-- The longest start of a text that is a numeral without exponent: what lies in
front of the last byte of the region, of the one before, and so on, until it can
be read. -/
def leadingDecimal? (t : Text) : Option Decimal :=
  (List.range (Text.byteSize (numeralRegion t) + 1)).reverse.findSome? fun n =>
    (Text.slice? n t).bind Decimal.ofText?

/-- The number a text starts with, after blanks; zero if it starts with none. -/
def leadingNumber (t : Text) : Binary64 :=
  match leadingDecimal? (Text.trimStart t) with
  | some d => d.toBinary .ofRatio
  | none => .zero false

/-- The integer a number is cut to, within the 64-bit range. -/
def Binary64.toInt64 (x : Binary64) : Int64 := .ofInt (x.truncate int64Low int64High)

namespace Scalar

/-! ## Readings -/

/-- The kind a value has of itself. Null has none. -/
def kind? : Scalar → Option BindingKind
  | .null => none
  | .bool _ => some .bool
  | .int _ => some .int
  | .float _ => some .float
  | .string _ => some .string
  | .json _ => some .json

/-- Whether a value is null. A JSON null is not. -/
def isNull : Scalar → Bool
  | .null => true
  | _ => false

def text : Scalar → Text
  | .null => []
  | .bool b => if b then "1" else "0"
  | .int i => intText i.toInt
  | .float x => x.plainText
  | .string t => t
  | .json v => v.text

/-- A value as an integer. Text goes through the number it starts with. -/
def integer : Scalar → Int64
  | .null => 0
  | .bool b => if b then 1 else 0
  | .int i => i
  | .float x => x.toInt64
  | .string t => (leadingNumber t).toInt64
  | .json (.number n) => n.toInt64
  | .json _ => 0

def number : Scalar → Binary64
  | .null => .zero false
  | .bool b => .ofInt (if b then 1 else 0)
  | .int i => .ofInt i.toInt
  | .float x => x
  | .string t => leadingNumber t
  | .json (.number n) => n.toBinary
  | .json _ => .zero false

def toJson : Scalar → Json.Value
  | .null => .null
  | .bool b => .bool b
  | .int i => .number (if i < 0 then .negative i else .natural i.toUInt64)
  | .float x => .number (.float x)
  | .string t => .string t
  | .json v => v

end Scalar

end BoundSql
