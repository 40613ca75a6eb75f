/-
Aggregates and the rows they are over.

The rows of a SELECT are its filtered source rows, unless DISTINCT, GROUP BY or
HAVING makes other rows of them. Over filtered source rows an aggregate can take
the place of the columns; over other rows the SELECT has to be its table, in
parentheses. Groups are treated so. DISTINCT without groups is not: it stays in
front of the aggregate, which is then over the rows as they are before it.
-/
import BoundSql.Proofs.ExceptFacts
import BoundSql.Query.Compile

namespace BoundSql

open Fragment (ofText)

/-- The expression of an aggregate over a column. -/
def Aggregate.expression (fn : Aggregate) (column : Text) : Text :=
  fn.function ++ "(" ++ column ++ ") AS field"

namespace Statements

variable {p : TablePrefix}

/-! ## A SELECT around its source -/

/-- What is behind the FROM of a SELECT, up to its ordering. -/
def sourceFragment (p : TablePrefix) (st : Statements) : Except Error Fragment := do
  let tables ← st.fromText p
  let joins ← Join.fragments p st.joins
  let filters ← Criterion.render p st.filters
  let havings ← Criterion.render p st.havings
  return ofText tables ++ joins ++ conditionClause " WHERE " filters ++
    ofText (listClause " GROUP BY " (st.groupings.map (·.text p))) ++
    conditionClause " HAVING " havings

/-- A SELECT of `columns` from a source. -/
def selected (st : Statements) (columns : Text) (source : Fragment) : Fragment :=
  ofText ("SELECT " ++ (if st.distinct then "DISTINCT ".toList else []) ++ columns ++ " FROM ") ++
    source

@[simp] theorem bindings_selected (st : Statements) (columns : Text) (source : Fragment) :
    (st.selected columns source).bindings = source.bindings := rfl

theorem sql_selected_distinct {st : Statements} (h : st.distinct = true) (columns : Text)
    (source : Fragment) :
    (st.selected columns source).sql = "SELECT DISTINCT " ++ columns ++ " FROM " ++ source.sql := by
  simp [selected, h]

theorem sql_selected_plain {st : Statements} (h : st.distinct = false) (columns : Text)
    (source : Fragment) :
    (st.selected columns source).sql = "SELECT " ++ columns ++ " FROM " ++ source.sql := by
  simp [selected, h]

/-- How a SELECT ends: its ordering and its paging. -/
def orderingText (p : TablePrefix) (st : Statements) : Text :=
  listClause " ORDER BY " (st.sortKeys.map (·.text p)) ++ numberClause " LIMIT " st.limit ++
    numberClause " OFFSET " st.offset

theorem selectFragment_eq (st : Statements) :
    st.selectFragment p = do
      let source ← st.sourceFragment p
      return st.selected (st.projectionText p) source ++ ofText (st.orderingText p) := by
  simp only [selectFragment, sourceFragment, bind_assoc, pure_bind, selected, orderingText,
    ← Fragment.append_assoc, ← Fragment.ofText_append]

theorem unordered_selectFragment (st : Statements) :
    st.unordered.selectFragment p = do
      let source ← st.sourceFragment p
      return st.selected (st.projectionText p) source := by
  rw [selectFragment_eq]
  change (st.sourceFragment p >>= fun source =>
    pure (st.selected (st.projectionText p) source ++ .empty)) = _
  simp only [Fragment.append_empty]

theorem select_eq (st : Statements) :
    st.select p = do
      let source ← st.sourceFragment p
      return ⟨st.selected (st.projectionText p) source ++ ofText (st.orderingText p), .select⟩ := by
  rw [select, selectFragment_eq, bind_assoc]
  rfl

theorem unordered_select (st : Statements) :
    st.unordered.select p = do
      let source ← st.sourceFragment p
      return ⟨st.selected (st.projectionText p) source, .select⟩ := by
  rw [select, unordered_selectFragment, bind_assoc]
  rfl

/-! ## Aggregates -/

/-- An aggregate over a source, with the SELECT for its table where that has
groups. -/
def aggregated (p : TablePrefix) (st : Statements) (expression : Text) (source : Fragment) :
    Fragment :=
  if st.isGrouped then
    ofText ("SELECT " ++ expression ++ " FROM (") ++ st.selected (st.projectionText p) source ++
      ofText ") AS t"
  else st.selected expression source

@[simp] theorem bindings_aggregated (st : Statements) (expression : Text) (source : Fragment) :
    (st.aggregated p expression source).bindings = source.bindings := by
  unfold aggregated
  split <;> simp

theorem aggregate_eq (st : Statements) (fn : Aggregate) {field : Field} {column : Text}
    (h : field.text p = .ok column) :
    st.aggregate p fn field = do
      let source ← st.sourceFragment p
      return ⟨st.aggregated p (fn.expression column) source, .aggregate⟩ := by
  rw [aggregate, h]
  change (if st.isGrouped then _ else _) = _
  unfold aggregated
  split
  next =>
    rw [unordered_selectFragment, bind_assoc]
    rfl
  next =>
    let single : Statements := { st with selects := [⟨.raw (ofText (fn.expression column)), none⟩] }
    change (single.unordered.selectFragment p >>= _) = _
    rw [unordered_selectFragment, bind_assoc]
    rfl

/-- `q` has the text of an aggregate over the rows of `s`, a SELECT: `s` with
the expression in place of its columns, or the expression over `s` in
parentheses if `s` makes other rows of its filtered source rows. -/
def IsAggregate (p : TablePrefix) (st : Statements) (expression : Text) (s q : Query) : Prop :=
  if st.distinct || st.isGrouped then
    q.sql = "SELECT " ++ expression ++ " FROM (" ++ s.sql ++ ") AS t"
  else ∃ rest, s.sql = "SELECT " ++ st.projectionText p ++ " FROM " ++ rest ∧
    q.sql = "SELECT " ++ expression ++ " FROM " ++ rest

/-- No aggregate over a table has DISTINCT in front of its expression. -/
theorem distinct_ne_wrapped (fn : Aggregate) (column t u : Text) :
    "SELECT DISTINCT ".toList ++ t ≠ "SELECT " ++ (fn.expression column ++ u) := by
  intro h
  have hwords : "SELECT ".toList ++ ("DISTINCT ".toList ++ t) =
      "SELECT ".toList ++ (fn.expression column ++ u) := h
  cases fn <;> exact absurd (List.cons.inj (List.append_cancel_left hwords)).1 (by decide)

theorem isAggregate_iff (st : Statements) (fn : Aggregate) (column : Text) (source : Fragment) :
    st.IsAggregate p (fn.expression column) ⟨st.selected (st.projectionText p) source, .select⟩
      ⟨st.aggregated p (fn.expression column) source, .aggregate⟩ ↔
      (st.distinct = true → st.isGrouped = true) := by
  unfold IsAggregate aggregated
  cases hgrouped : st.isGrouped with
  | true => simp [Query.sql]
  | false =>
    cases hdistinct : st.distinct with
    | false =>
      exact iff_of_true ⟨source.sql, sql_selected_plain hdistinct _ _, sql_selected_plain hdistinct _ _⟩
        nofun
    | true =>
      refine iff_of_false (fun h => ?_) (by simp)
      have hsql : (st.selected (fn.expression column) source).sql = "SELECT " ++ fn.expression column ++
          " FROM (" ++ (st.selected (st.projectionText p) source).sql ++ ") AS t" := h
      rw [sql_selected_distinct hdistinct] at hsql
      simp only [List.append_assoc] at hsql
      exact distinct_ne_wrapped fn column _ _ hsql

/-- **An aggregate is over the rows of the SELECT, except for DISTINCT alone.**
The SELECT of any statements and an aggregate over a column both fail, with the
same error, or both compile, to queries with the same bindings. The aggregate
has the text of an aggregate over the rows of the SELECT without its ordering
and paging if and only if there is no DISTINCT without groups. Where there is,
DISTINCT stays in front of the expression. -/
theorem aggregate_over_rows (p : TablePrefix) (st : Statements) (fn : Aggregate) {field : Field}
    {column : Text} (h : field.text p = .ok column) :
    Alike (fun s q => q.kind = .aggregate ∧ q.bindings = s.bindings ∧
        (st.IsAggregate p (fn.expression column) s q ↔ (st.distinct = true → st.isGrouped = true)) ∧
        (st.distinct = true → st.isGrouped = false → ∃ rest,
          s.sql = "SELECT DISTINCT " ++ st.projectionText p ++ " FROM " ++ rest ∧
          q.sql = "SELECT DISTINCT " ++ fn.expression column ++ " FROM " ++ rest))
      (st.unordered.select p) (st.aggregate p fn field) ∧
    Alike (fun s q => q.bindings = s.bindings) (st.select p) (st.aggregate p fn field) := by
  rw [unordered_select, select_eq, aggregate_eq st fn h]
  refine ⟨AlikeBy.bind_same Eq.refl fun source => ⟨rfl, ?_, st.isAggregate_iff fn column source,
    fun hdistinct hgrouped => ⟨source.sql, sql_selected_distinct hdistinct _ _, ?_⟩⟩,
    AlikeBy.bind_same Eq.refl fun source => ?_⟩
  · simp [Query.bindings]
  · simp only [Query.sql, aggregated, hgrouped]
    exact sql_selected_distinct hdistinct _ _
  · change (st.aggregated p (fn.expression column) source).bindings = _
    simp [Query.bindings]

theorem aggregate_over_rows_sample :
    let st : Statements :=
      { tables := [⟨.named "users", none⟩]
        selects := [⟨.name "kind", none⟩]
        filters := [.leaf .and .filter (.compare (.name "age") ">" (.plain (.int 17)))]
        groupings := [⟨.name "kind"⟩]
        distinct := true
        limit := some 5 }
    Field.text {} (.column (.name "age")) = .ok "age".toList ∧ ∃ s q,
      st.unordered.select {} = .ok s ∧ st.aggregate {} .max (.column (.name "age")) = .ok q ∧
      q.bindings = s.bindings ∧ q.sql = ("SELECT MAX(age) AS field FROM (" ++
        "SELECT DISTINCT kind FROM users WHERE age > %d GROUP BY kind) AS t").toList := by
  intro st
  have hfield : Field.text {} (.column (.name "age")) = .ok "age".toList := rfl
  obtain ⟨hunordered, -⟩ := aggregate_over_rows {} st .max hfield
  obtain ⟨s, hs⟩ : ∃ s, st.unordered.select {} = .ok s := ⟨_, rfl⟩
  obtain ⟨q, hq, -, hbindings, htext, -⟩ := hunordered.of_ok hs
  have hsql : (st.unordered.select {}).map Query.sql =
      .ok "SELECT DISTINCT kind FROM users WHERE age > %d GROUP BY kind".toList := rfl
  replace hsql : s.sql = _ := Except.ok.inj (hs ▸ hsql)
  have hover : q.sql = "SELECT " ++ Aggregate.max.expression "age" ++ " FROM (" ++ s.sql ++ ") AS t" :=
    htext.mpr fun _ => rfl
  refine ⟨hfield, s, q, hs, hq, hbindings, ?_⟩
  rw [hover, hsql]
  rfl

/-- The number of rows of a DISTINCT without groups is asked for as the number
of rows before it. -/
theorem count_distinct_over_source :
    let st : Statements :=
      { tables := [⟨.named "users", none⟩], selects := [⟨.name "email", none⟩], distinct := true }
    ∃ s q, st.unordered.select {} = .ok s ∧ st.aggregate {} .count (.column (.name "*")) = .ok q ∧
      s.sql = "SELECT DISTINCT email FROM users".toList ∧
      q.sql = "SELECT DISTINCT COUNT(*) AS field FROM users".toList ∧
      ¬ st.IsAggregate {} "COUNT(*) AS field" s q := by
  refine ⟨_, _, rfl, rfl, rfl, rfl, fun h => ?_⟩
  have hsql : "SELECT DISTINCT COUNT(*) AS field FROM users".toList =
      "SELECT COUNT(*) AS field FROM (SELECT DISTINCT email FROM users) AS t".toList := h
  exact absurd hsql (by decide)

end Statements

end BoundSql
