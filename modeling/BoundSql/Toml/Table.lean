/-
TOML values, and tables put together from lines.

A table can be opened by a header, be made on the way to a deeper header, or
be made by a dotted key. What may still be added to it depends on which it
was, so tables under construction (`Node`) remember. A value given in one
piece, an inline table among them, is closed.
-/
import BoundSql.Number.Binary64

namespace BoundSql.Toml

/-- A TOML value. Dates and times are kept as written. -/
inductive Value where
  | string (t : Text)
  | integer (i : Int)
  | float (x : Binary64)
  | boolean (b : Bool)
  | dateTime (t : Text)
  | array (items : List Value)
  | table (members : List (Text × Value))

/-- Where a table under construction comes from. -/
inductive Origin where
  | header
  | implied
  | dotted
  deriving DecidableEq

/-- A member of a table under construction: a closed value, a table, or an
array of tables of which the last one is open. -/
inductive Node where
  | closed (v : Value)
  | table (origin : Origin) (members : List (Text × Node))
  | tables (done : List (List (Text × Node))) (last : List (Text × Node))

/-- The members of a table under construction. -/
abbrev Members := List (Text × Node)

/-! ## Adding -/

/-- Puts a node in place of the one with the same key, or at the end. -/
def Members.set (k : Text) (n : Node) : Members → Members
  | [] => [(k, n)]
  | (k', n') :: rest => if k = k' then (k, n) :: rest else (k', n') :: Members.set k n rest

/-- Changes the table a header's path leads to. Tables not there yet are made
on the way; an array of tables is entered at its last one. -/
def within (change : Members → Option Members) : List Text → Members → Option Members
  | [], ms => change ms
  | k :: rest, ms =>
    match ms.lookup k with
    | none => do return ms.set k (.table .implied (← within change rest []))
    | some (.closed _) => none
    | some (.table origin inner) => do
      return ms.set k (.table origin (← within change rest inner))
    | some (.tables done last) => do return ms.set k (.tables done (← within change rest last))

/-- Opens the table `k`. A table can be opened once, and not at all if a dotted
key made it. -/
def openTable (k : Text) (ms : Members) : Option Members :=
  match ms.lookup k with
  | none => some (ms.set k (.table .header []))
  | some (.table .implied inner) => some (ms.set k (.table .header inner))
  | some _ => none

/-- Opens a new last table of the array `k`. -/
def openElement (k : Text) (ms : Members) : Option Members :=
  match ms.lookup k with
  | none => some (ms.set k (.tables [] []))
  | some (.tables done last) => some (ms.set k (.tables (done ++ [last]) []))
  | some _ => none

/-- Gives the key `k`, which must be new, a value. -/
def addValue (k : Text) (v : Value) (ms : Members) : Option Members :=
  match ms.lookup k with
  | none => some (ms.set k (.closed v))
  | some _ => none

/-- Gives a dotted key a value. The tables on its way are made, or are tables
that no header has opened; the last of them must be made by a dotted key. -/
def addDotted (v : Value) : List Text → Members → Option Members
  | [], _ => none
  | [k], ms => addValue k v ms
  | k :: k' :: rest, ms =>
    match ms.lookup k with
    | none => do return ms.set k (.table .dotted (← addDotted v (k' :: rest) []))
    | some (.table origin inner) =>
      if origin = .header ∨ (rest = [] ∧ origin ≠ .dotted) then none
      else do return ms.set k (.table origin (← addDotted v (k' :: rest) inner))
    | some (.tables done last) =>
      if rest = [] then none
      else do return ms.set k (.tables done (← addDotted v (k' :: rest) last))
    | some (.closed _) => none

/-! ## Finished tables -/

mutual

def Node.value : Node → Value
  | .closed v => v
  | .table _ ms => .table (membersValue ms)
  | .tables done last => .array (tablesValue done ++ [.table (membersValue last)])

def membersValue : List (Text × Node) → List (Text × Value)
  | [] => []
  | (k, n) :: rest => (k, n.value) :: membersValue rest

/-- The values of the tables of an array. -/
def tablesValue : List (List (Text × Node)) → List Value
  | [] => []
  | ms :: rest => .table (membersValue ms) :: tablesValue rest

end

/-- One line of a document: a key with its value, or the header of a table or
of a new table of an array. -/
inductive Entry where
  | pair (key : List Text) (v : Value)
  | header (path : List Text)
  | elementHeader (path : List Text)

/-- The key a path ends in and the path to it. -/
def splitLast? : List Text → Option (List Text × Text)
  | [] => none
  | [k] => some ([], k)
  | k :: rest => (splitLast? rest).map fun (path, last) => (k :: path, last)

/-- Adds lines to a document, where `path` is the header they stand under. -/
def addEntries : List Text → List Entry → Members → Option Members
  | _, [], ms => some ms
  | path, .pair key v :: rest, ms => do
    addEntries path rest (← within (addDotted v key) path ms)
  | _, .header path :: rest, ms => do
    let (parent, k) ← splitLast? path
    addEntries path rest (← within (openTable k) parent ms)
  | _, .elementHeader path :: rest, ms => do
    let (parent, k) ← splitLast? path
    addEntries path rest (← within (openElement k) parent ms)

/-- The table lines make, unless a key is given twice or a table is opened
twice. -/
def tableOf? (entries : List Entry) : Option (List (Text × Value)) :=
  (addEntries [] entries []).map membersValue

end BoundSql.Toml
