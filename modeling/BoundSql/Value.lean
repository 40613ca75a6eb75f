/-
Operand values: SQL spliced in as it is, a binding, or a scalar that is bound
with its own kind.
-/
import BoundSql.Fragment.Substitution

namespace BoundSql

/-- A value where a statement takes one. -/
inductive Value where
  | raw (fragment : Fragment)
  | bound (binding : Binding)
  | plain (scalar : Scalar)

namespace Value

def json (v : Json.Value) : Value := .bound (.json v)

/-- Whether a value is spliced in as it is. -/
def isRaw : Value → Bool
  | .raw _ => true
  | _ => false

/-- What a value is written as: text of its own, or a placeholder with a
binding. -/
inductive Resolved where
  | literal (fragment : Fragment)
  | typed (binding : Binding)

/-- A binding where it can be one, NULL where SQL has no other word for it. -/
def Resolved.ofBinding (b : Binding) : Resolved :=
  if b.isSqlNull then .literal (.ofText "NULL") else .typed b

/-- What a value is written as. -/
def resolved : Value → Resolved
  | .raw f => .literal f
  | .bound b => .ofBinding b
  | .plain s =>
    match s.kind? with
    | some kind => .ofBinding ⟨s, kind⟩
    | none => .literal (.ofText "NULL")

/-- The fragment a value becomes. Raw text takes its own bindings into
itself, so only a placeholder brings one. -/
def fragment (v : Value) : Fragment :=
  match v.resolved with
  | .literal f => .ofText f.inlined
  | .typed b => .ofBinding b

end Value

end BoundSql
