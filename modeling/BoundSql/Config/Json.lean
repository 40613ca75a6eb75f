/-
Reading kinds, prefixes and configurations from JSON.

Each is read from the document as written, because a key that comes twice is
refused if it is one of the known keys, and the values of unknown keys are not
looked at.
-/
import BoundSql.Binding.Kind
import BoundSql.Config.Basic
import BoundSql.Json.Document

namespace BoundSql

namespace Json.Document

def text? : Document → Option Text
  | .string letters => lettersText? letters
  | _ => none

/-- The text of a string, or the absence null stands for. -/
def optionalText? : Document → Option (Option Text)
  | .null => some none
  | d => d.text?.map some

/-- A natural number that fits 64 bits, or the absence null stands for. -/
def optionalNatural? : Document → Option (Option Nat)
  | .null => some none
  | .number n =>
    match n.number? with
    | some (.natural k) => some (some k.toNat)
    | _ => none
  | _ => none

/-- The members of an object under their keys, in the order written. -/
def keyed? : List (List Letter × Document) → Option (List (Text × Document))
  | [] => some []
  | (k, d) :: rest => do return (← lettersText? k, d) :: (← keyed? rest)

end Json.Document

/-- The only value of a key, or none; nothing if the key comes twice. -/
def onlyValue? (members : List (Text × Json.Document)) (key : Text) :
    Option (Option Json.Document) :=
  match members.filter fun m => m.1 == key with
  | [] => some none
  | [m] => some (some m.2)
  | _ => none

/-- A kind: its name, or an object that maps the name to null. -/
def BindingKind.ofDocument? : Json.Document → Option BindingKind
  | .object [(k, .null)] => do ofName? (← Json.lettersText? k)
  | d => do ofName? (← d.text?)

/-- A table prefix: an object with the key `prefix`, or an array of its value. -/
def TablePrefix.ofDocument? : Json.Document → Option TablePrefix
  | .object members => do
    match ← onlyValue? (← Json.Document.keyed? members) "prefix" with
    | none => some {}
    | some d => return ⟨← d.optionalText?⟩
  | .array [d] => do return ⟨← d.optionalText?⟩
  | _ => none

namespace Config

/-- A configuration from the documents of its two settings, either of which may
be missing. -/
def ofSettings? (tablePrefix maxLoggedSql : Option Json.Document) : Option Config := do
  let c : Config := {}
  let t ← match tablePrefix with
    | none => pure c.tablePrefix
    | some d => d.optionalText?
  let n ← match maxLoggedSql with
    | none => pure c.maxLoggedSql
    | some d => d.optionalNatural?
  return ⟨t, n⟩

/-- A configuration: an object of its settings, or an array of them in
order. -/
def ofDocument? : Json.Document → Option Config
  | .object members => do
    let members ← Json.Document.keyed? members
    let tablePrefix ← onlyValue? members "table_prefix"
    ofSettings? tablePrefix (← onlyValue? members "max_logged_sql_length")
  | .array [] => ofSettings? none none
  | .array [t] => ofSettings? (some t) none
  | .array [t, n] => ofSettings? (some t) (some n)
  | _ => none

end Config

end BoundSql
