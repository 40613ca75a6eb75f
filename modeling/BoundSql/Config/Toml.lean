/-
Reading configurations from TOML.
-/
import BoundSql.Config.Basic
import BoundSql.Error
import BoundSql.Number.Integer
import BoundSql.Toml.Document

namespace BoundSql.Config

/-- The text of a setting; nothing if it is not set. -/
def textSetting (members : List (Text × Toml.Value)) (key : Text) : Except Error (Option Text) :=
  match members.lookup key with
  | none => .ok none
  | some (.string t) => .ok (some t)
  | some _ => .error (.config (.wrongType key))

/-- The natural number of a setting, of at most 64 bits; nothing if it is not
set. -/
def naturalSetting (members : List (Text × Toml.Value)) (key : Text) : Except Error (Option Nat) :=
  match members.lookup key with
  | none => .ok none
  | some (.integer i) =>
    if 0 ≤ i ∧ i < pow2 64 then .ok (some i.toNat) else .error (.config (.wrongType key))
  | some _ => .error (.config (.wrongType key))

/-- Reads a configuration. Keys it does not know are passed over. -/
def ofToml (t : Text) : Except Error Config :=
  match Toml.documentOf? t with
  | none => .error (.config .unreadable)
  | some members => do
    let c : Config := {}
    let tablePrefix ← textSetting members "table_prefix"
    let limit ← naturalSetting members "max_logged_sql_length"
    return ⟨tablePrefix, limit <|> c.maxLoggedSql⟩

end BoundSql.Config
