/-
Putting literals in place of placeholders.

A text is first cut into pieces (`Piece.scan`): placeholders, doubled percent
signs, other characters. Filling takes the bindings in order, one for each
placeholder, and treats percent signs in one of two ways: the result is again
text with placeholders (`Fragment.inlined`), or it is what a database receives
(`Fragment.rendered`).
-/
import BoundSql.Binding.Literal
import BoundSql.Fragment.Basic

namespace BoundSql

inductive Piece where
  | char (c : Char)
  | percent
  | token (p : Placeholder)
  deriving DecidableEq

namespace Piece

/-- The text of a piece. A percent sign is written twice. -/
def text : Piece → Text
  | .char c => [c]
  | .percent => "%%"
  | .token p => p.text

/-- Cuts a text into pieces, from left to right. A percent sign before another
character, or at the end, stands for itself. -/
def scan : Text → List Piece
  | [] => []
  | '%' :: '%' :: rest => .percent :: scan rest
  | '%' :: 's' :: rest => .token .string :: scan rest
  | '%' :: 'd' :: rest => .token .integer :: scan rest
  | '%' :: 'f' :: rest => .token .decimal :: scan rest
  | c :: rest => .char c :: scan rest

/-- Nothing is lost in cutting. -/
theorem text_scan (t : Text) : (scan t).flatMap text = t := by
  fun_induction scan t <;> simp_all [text, Placeholder.text, Placeholder.letter]

/-- The placeholder a piece is, if it is one. -/
def token? : Piece → Option Placeholder
  | .token p => some p
  | _ => none

end Piece

/-- The placeholders of a text, from left to right. -/
def placeholders (t : Text) : List Placeholder := (Piece.scan t).filterMap Piece.token?

/-- What filled text is for: to hold placeholders still, or to be final. -/
inductive Percent where
  | doubled
  | single
  deriving DecidableEq

namespace Percent

/-- A literal in filled text. -/
def literal : Percent → Text → Text
  | .doubled, t => t.flatMap fun c => if c = '%' then "%%" else [c]
  | .single, t => t

/-- What a doubled percent sign becomes. -/
def sign : Percent → Text
  | .doubled => "%%"
  | .single => "%"

end Percent

/-- Fills the placeholders of a text with bindings, in order. Placeholders
beyond the bindings stay, bindings beyond the placeholders are dropped. -/
def fill (percent : Percent) : List Piece → List Binding → Text
  | [], _ => []
  | .char c :: rest, bs => c :: fill percent rest bs
  | .percent :: rest, bs => percent.sign ++ fill percent rest bs
  | .token _ :: rest, b :: bs => percent.literal b.literal ++ fill percent rest bs
  | .token p :: rest, [] => p.text ++ fill percent rest []

namespace Fragment

/-- The fragment as text to be embedded in other SQL: its bindings become
literals, and percent signs stay doubled. Text without bindings is taken as it
is. -/
def inlined (f : Fragment) : Text :=
  if f.bindings.isEmpty then f.sql else fill .doubled (Piece.scan f.sql) f.bindings

/-- The fragment as a database would receive it. -/
def rendered (f : Fragment) : Text := fill .single (Piece.scan f.sql) f.bindings

end Fragment

end BoundSql
