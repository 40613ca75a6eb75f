/-
JSON values.

Numbers keep apart what a reader of JSON can tell apart: naturals that fit 64
bits, negative integers that fit 64 bits, and everything else as a binary
floating-point number. The members of an object are a list; `insert` keeps it
sorted by key, without a key twice.
-/
import BoundSql.Number.Decimal

namespace BoundSql.Json

inductive Number where
  | natural (n : UInt64)
  | negative (i : Int64)
  | float (x : Binary64)
  deriving DecidableEq

inductive Value where
  | null
  | bool (b : Bool)
  | number (n : Number)
  | string (t : Text)
  | array (items : List Value)
  | object (members : List (Text × Value))

instance : Inhabited Value := ⟨.null⟩

abbrev Members := List (Text × Value)

/-- Sets a member: in place of the one with the same key, or before the first
one with a greater key. Keys are compared by code points, which is the order
of their UTF-8 bytes. -/
def Members.insert (k : Text) (v : Value) : Members → Members
  | [] => [(k, v)]
  | (k', v') :: rest =>
    if k = k' then (k, v) :: rest
    else if k < k' then (k, v) :: (k', v') :: rest
    else (k', v') :: Members.insert k v rest

/-- Members in the order of their keys, the last one with a key standing for
all of them. -/
def Members.sorted (ms : Members) : Members :=
  ms.foldl (fun done m => Members.insert m.1 m.2 done) []

def Members.get? (ms : Members) (k : Text) : Option Value := ms.lookup k

/-! ## Numeric readings -/

/-- The number nearest to a JSON number. -/
def Number.toBinary : Number → Binary64
  | .natural n => .ofInt n.toNat
  | .negative i => .ofInt i.toInt
  | .float x => x

/-- The integer a JSON number is cut to. -/
def Number.toInt64 : Number → Int64
  | .natural n => .ofInt (min n.toNat int64High)
  | .negative i => i
  | .float x => .ofInt (x.truncate int64Low int64High)

/-- The natural number a JSON number is, if it is one that fits 64 bits. -/
def Number.toUInt64? : Number → Option UInt64
  | .natural n => some n
  | _ => none

end BoundSql.Json
