/-
Fragments: SQL text together with the bindings of its placeholders.

Both what a caller writes by hand and what the compiler produces are
fragments. They are put together with `++`, which joins the texts and joins
the bindings, so that the i-th placeholder keeps meeting the i-th binding.
-/
import BoundSql.Binding.Basic

namespace BoundSql

/-- SQL text and bindings for its placeholders, in order. -/
structure Fragment where
  sql : Text
  bindings : List Binding := []
  deriving Inhabited

namespace Fragment

def ofText (t : Text) : Fragment := ⟨t, []⟩

instance : Coe Text Fragment := ⟨ofText⟩

def empty : Fragment := ofText []

def ofBinding (b : Binding) : Fragment := ⟨b.placeholder.text, [b]⟩

def append (f g : Fragment) : Fragment := ⟨f.sql ++ g.sql, f.bindings ++ g.bindings⟩

instance : Append Fragment := ⟨append⟩

@[simp] theorem sql_append (f g : Fragment) : (f ++ g).sql = f.sql ++ g.sql := rfl

@[simp] theorem bindings_append (f g : Fragment) :
    (f ++ g).bindings = f.bindings ++ g.bindings := rfl

@[simp] theorem sql_ofText (t : Text) : (ofText t).sql = t := rfl

@[simp] theorem bindings_ofText (t : Text) : (ofText t).bindings = [] := rfl

theorem append_assoc (f g h : Fragment) : f ++ g ++ h = f ++ (g ++ h) := by
  change append (append f g) h = append f (append g h)
  simp [append]

@[simp] theorem append_empty (f : Fragment) : f ++ empty = f := by
  change append f empty = f
  simp [append, empty]

theorem ofText_append (a b : Text) : ofText (a ++ b) = ofText a ++ ofText b := rfl

@[simp] theorem empty_append (f : Fragment) : empty ++ f = f := rfl

/-- The fragments in order, `separator` between each two of them. -/
def joined (separator : Text) : List Fragment → Fragment
  | [] => empty
  | [f] => f
  | f :: g :: rest => f ++ ofText separator ++ joined separator (g :: rest)

theorem sql_joined (separator : Text) (fs : List Fragment) :
    (joined separator fs).sql = Text.joined separator (fs.map sql) := by
  induction fs using joined.induct with
  | case1 => rfl
  | case2 => rfl
  | case3 f g rest ih => simp only [List.map_cons] at ih ⊢; simp [joined, Text.joined, ih]

theorem bindings_joined (separator : Text) (fs : List Fragment) :
    (joined separator fs).bindings = fs.flatMap bindings := by
  induction fs using joined.induct with
  | case1 => rfl
  | case2 => simp [joined]
  | case3 f g rest ih => simp [joined, ih]

def trim (f : Fragment) : Fragment := { f with sql := Text.trim f.sql }

/-- A fragment as JSON: its text, then its bindings. -/
def toJson (f : Fragment) : Json.Value :=
  .object [("sql", .string f.sql), ("bindings", .array (f.bindings.map Binding.toJson))]

end Fragment

end BoundSql
