/-
Bindings: a value together with the kind it is written as.
-/
import BoundSql.Binding.Scalar
import BoundSql.Error

namespace BoundSql

def BindingKind.parse (t : Text) : Except Error BindingKind :=
  match BindingKind.ofText? t with
  | some kind => .ok kind
  | none => .error (.bindingKind (.unknown t))

/-- A value and the kind it is bound as. -/
structure Binding where
  value : Scalar
  kind : BindingKind

namespace Binding

/-- A value bound with a kind given by name. A missing name is an error: a
value is never turned into SQL text without a kind. -/
def ofParts (value : Scalar) : Option Text → Except Error Binding
  | some kind => do return ⟨value, ← BindingKind.parse kind⟩
  | none => .error (.bindingKind .missing)

/-- A value bound with the kind it has of itself. -/
def infer (value : Scalar) : Except Error Binding :=
  match value.kind? with
  | some kind => .ok ⟨value, kind⟩
  | none => .error (.bindingKind .ofNull)

/-- A JSON value bound as JSON. -/
def json (v : Json.Value) : Binding := ⟨.json v, .json⟩

def placeholder (b : Binding) : Placeholder := b.kind.placeholder

/-- Whether a binding is NULL in SQL: its value is null, or a number that SQL
cannot write. -/
def isSqlNull (b : Binding) : Bool :=
  b.value.isNull || (b.kind == .float && !b.value.number.isFinite)

/-- A binding as JSON: its value, then its kind. -/
def toJson (b : Binding) : Json.Value :=
  .object [("value", b.value.toJson), ("kind", .string b.kind.name)]

end Binding

end BoundSql
