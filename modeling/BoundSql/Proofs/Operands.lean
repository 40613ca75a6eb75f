/-
What statements hold, read off without writing any SQL: the tests of
conditions however deep in groups, and the bindings of operands.

This is the other side of what is said about compiled queries
(`Proofs.Bindings`, `Proofs.Alignment`, `Proofs.Filters`): a traversal of the
data, from left to right and depth first, with no text and no clause in it.
-/
import BoundSql.Query.Compile

namespace BoundSql

open Fragment (ofText)

/-! ## Tests -/

mutual

/-- The tests of a condition, those inside groups included. -/
def Criterion.tests : Criterion → List Test
  | .leaf _ _ t => [t]
  | .group _ _ _ inner => Criterion.allTests inner

/-- The tests of conditions, in order. -/
def Criterion.allTests : List Criterion → List Test
  | [] => []
  | c :: rest => c.tests ++ Criterion.allTests rest

end

theorem Criterion.allTests_append (cs ds : List Criterion) :
    allTests (cs ++ ds) = allTests cs ++ allTests ds := by
  induction cs with
  | nil => rfl
  | cons c cs ih => simp [allTests, ih]

/-! ## Bindings -/

/-- The binding of a value: the one it is, or a scalar with its own kind. Raw
SQL and a null that nothing says the kind of have none. -/
def Value.binding? : Value → Option Binding
  | .raw _ => none
  | .bound b => some b
  | .plain s => s.kind?.map fun kind => ⟨s, kind⟩

/-- The bindings a value brings: its own, unless SQL writes it as NULL. -/
def Value.bindings (v : Value) : List Binding := v.binding?.toList.filter fun b => !b.isSqlNull

theorem Value.fragment_bound (b : Binding) :
    (Value.bound b).fragment = if b.isSqlNull then ofText "NULL" else .ofBinding b := by
  rw [Value.fragment, Value.resolved, Value.Resolved.ofBinding]
  cases b.isSqlNull <;> rfl

/-- What a value is written as: raw SQL with its bindings inside, a placeholder
with the binding of the value, or NULL. -/
theorem Value.fragment_cases (v : Value) :
    (∃ f, v = .raw f ∧ v.fragment = ofText f.inlined) ∨
      (∃ b, v.binding? = some b ∧ v.fragment = if b.isSqlNull then ofText "NULL" else .ofBinding b) ∨
      v.isRaw = false ∧ v.binding? = none ∧ v.fragment = ofText "NULL" := by
  cases v with
  | raw f => exact .inl ⟨f, rfl, rfl⟩
  | bound b => exact .inr (.inl ⟨b, rfl, Value.fragment_bound b⟩)
  | plain s =>
    cases hs : s.kind? with
    | none =>
      refine .inr (.inr ⟨rfl, ?_, ?_⟩)
      · rw [Value.binding?, hs]; rfl
      · rw [Value.fragment, Value.resolved, hs]; rfl
    | some kind =>
      refine .inr (.inl ⟨⟨s, kind⟩, ?_, ?_⟩)
      · rw [Value.binding?, hs]; rfl
      · rw [← Value.fragment_bound, Value.fragment, Value.resolved, hs]; rfl

/-- The bindings of the operand of a test. -/
def Test.bindings : Test → List Binding
  | .literal _ | .unary .. | .columns .. => []
  | .compare _ _ v => v.bindings
  | .among _ _ vs => vs.flatMap Value.bindings

/-- The bindings of conditions, in the order of their tests. -/
def Criterion.bindings (cs : List Criterion) : List Binding :=
  (Criterion.allTests cs).flatMap Test.bindings

/-- The bindings of a row, column by column. -/
def Row.bindings (row : Row) : List Binding := row.flatMap fun entry => entry.2.bindings

/-- The bindings of the conditions of a query that reads: those of the joins,
one after the other, then those of WHERE and of HAVING. -/
def Statements.bindings (st : Statements) : List Binding :=
  (st.joins.flatMap fun j => Criterion.bindings j.conditions) ++ Criterion.bindings st.filters ++
    Criterion.bindings st.havings

/-! ## A sample -/

/-- Statements with something in every clause: values of every sort, percent
signs in raw SQL and in values, a group in a group, a group without conditions. -/
def Statements.sample : Statements where
  tables := [⟨.named "users", some "u"⟩]
  selects := [⟨.name "u.id", none⟩, ⟨.json ⟨"u.data", ["tags[0]"]⟩, some "tag"⟩]
  filters :=
    [.leaf .and .filter (.literal ⟨"u.rate %% %d = 0", [⟨.int 5, .int⟩]⟩),
      .group .orNot .filter []
        [.leaf .and .filter (.among (.name "u.kind") "IN" [.plain (.string "a%"),
            .bound ⟨.null, .string⟩, .raw ⟨"CONCAT('%%', %s)", [⟨.string "%s", .string⟩]⟩]),
          .group .and .filter [] [],
          .group .or .filter [] [.leaf .and .filter (.compare (.name "u.gone") "<=>" (.plain .null))]],
      .leaf .and .filter (.among (.name "u.age") "NOT BETWEEN" [.plain (.int 18), .plain (.int 65)])]
  havings := [.leaf .and .having (.compare (.raw ⟨"COUNT(*) %", []⟩) "4 >" (.plain (.int 2)))]
  joins :=
    [⟨⟨.named "orders", some "o"⟩, .left,
      [.leaf .and .joinOn (.columns (.name "o.user_id") "=" (.name "u.id")),
        .leaf .or .joinOn (.compare (.name "o.state") "=" (.plain (.string "50%d")))]⟩]
  sortKeys := [⟨.raw ⟨"FIELD(u.id, %d)", [⟨.int 7, .int⟩]⟩, .descending⟩]
  groupings := [⟨.name "u.kind"⟩]
  limit := some 10
  onDuplicate := [("n", .plain (.int 1))]

/-- A row with a percent sign, a null, and raw SQL. -/
def Row.sample : Row :=
  [("name", .plain (.string "100%s")), ("age", .plain .null),
    ("rank", .raw ⟨"%d + 1", [⟨.int 3, .int⟩]⟩)]

end BoundSql
