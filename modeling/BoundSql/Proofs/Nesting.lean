/-
A nested group is the same conditions in parentheses.

Conditions can be asked of a builder one by one, or of a group that the builder
is then given as a whole. The builder routes what it takes by clause and keeps
its own error, the group has its own list and its own error; yet both take the
same conditions and refuse the same one first (`Builder.applyAll_conditions`,
`Builder.apply_group`). What is written for the group is what is written for
the conditions, in parentheses, and nothing where that is empty text.

A condition handed in ready-made for another clause is where the two part: the
builder sends it to its own clause, and the group keeps it.
-/
import BoundSql.Proofs.Collecting
import BoundSql.Proofs.TrimFacts

namespace BoundSql

open Fragment (ofText)

/-! ## Conditions asked one by one, and as a group -/

/-- Conditions pushed to a list of conditions are put behind it. -/
theorem Statements.pushAll_map {statement : Criterion → Statement} {put : List Criterion → Statements}
    (hput : ∀ ds d, (put ds).push (statement d) = put (ds ++ [d])) (ds more : List Criterion) :
    (put ds).pushAll (more.map statement) = put (ds ++ more) := by
  induction more generalizing ds with
  | nil => simp [pushAll]
  | cons d more ih =>
    change ((put ds).push (statement d)).pushAll (more.map statement) = _
    rw [hput, ih, List.append_assoc]
    rfl

namespace Builder

/-- What `call` asks for is pushed to the clause `k`, and a condition for that
clause is recorded as `statement`. -/
structure AskedWith (k : Clause) (call : Condition → Call) (statement : Criterion → Statement) :
    Prop where
  call : ∀ c, (call c).statements = Call.ofCondition k c
  statement : ∀ d : Criterion, d.clause = k → d.statement = .ok (statement d)

theorem askedWith_filter : AskedWith .filter .filter .filter where
  call _ := rfl
  statement d hd := by rw [Criterion.statement, hd]

theorem askedWith_having : AskedWith .having .having .having where
  call _ := rfl
  statement d hd := by rw [Criterion.statement, hd]

section Conditions

variable {k : Clause} {call : Condition → Call} {statement : Criterion → Statement}

/-- Of a condition for a clause a group takes what is pushed there. -/
theorem statements_add (hk : AskedWith k call statement) {c : Condition} (hc : c.clause k = k) :
    (Group.add { clause := k } c).statements =
      (Group.add { clause := k } c).criteria.map fun d => .ok (statement d) :=
  List.map_congr_left fun d hd => hk.statement d ((Group.clause_of_mem_add hd).trans hc)

theorem apply_condition (hk : AskedWith k call statement) (b : Builder) {c : Condition}
    (hc : c.clause k = k) :
    b.apply (call c) = { b with
      statements := b.statements.pushAll ((Group.add { clause := k } c).criteria.map statement)
      error := b.error.or (Group.add { clause := k } c).error } := by
  obtain ⟨haccepted, hrefusals⟩ := Call.ofCondition_eq k c
  rw [apply_eq, hk.call, haccepted, hrefusals, statements_add hk hc, accepted_map_ok, refusals_map_ok,
    List.head?_nil, Option.or_none, Option.head?_toList]

/-- A builder takes and refuses conditions as a group does, call by call. -/
theorem applyAll_conditions (hk : AskedWith k call statement) (b : Builder) {cs : List Condition}
    (hcs : ∀ c ∈ cs, c.clause k = k) :
    b.applyAll (cs.map call) = { b with
      statements := b.statements.pushAll ((Group.addAll { clause := k } cs).criteria.map statement)
      error := b.error.or (Group.addAll { clause := k } cs).error } := by
  induction cs generalizing b with
  | nil => simp [applyAll, Group.addAll, Statements.pushAll]
  | cons c rest ih =>
    obtain ⟨hc, hrest⟩ := List.forall_mem_cons.mp hcs
    have hcriteria : (Group.addAll { clause := k } (c :: rest)).criteria =
        (Group.add { clause := k } c).criteria ++ (Group.addAll { clause := k } rest).criteria := by
      simp [Group.criteria_addAll]
    have herror : (Group.addAll { clause := k } (c :: rest)).error =
        (Group.add { clause := k } c).error.or (Group.addAll { clause := k } rest).error := by
      simp [Group.error_addAll, Group.error_add, Condition.allAsked, List.head?_append]
    change (b.apply (call c)).applyAll (rest.map call) = _
    rw [ih _ hrest, apply_condition hk b hc, hcriteria, herror, List.map_append,
      Statements.pushAll_append, Option.or_assoc]

/-- A group handed to a builder is refused as the same conditions are one by
one. -/
theorem error_apply_group (hk : AskedWith k call statement) (b : Builder) (j : Connective)
    {cs : List Condition} (hcs : ∀ c ∈ cs, c.clause k = k) :
    (b.applyAll (cs.map call)).error = (b.apply (call (.group j cs))).error := by
  rw [applyAll_conditions hk b hcs, apply_condition hk b rfl, Group.add, Group.error_push,
    Group.refusals_result]
  rfl

/-- Where nothing is refused, the conditions are pushed one by one, or as one
condition that holds them all. -/
theorem apply_group (hk : AskedWith k call statement) {b : Builder} (j : Connective)
    {cs : List Condition} (hcs : ∀ c ∈ cs, c.clause k = k)
    (h : (b.applyAll (cs.map call)).error = none) :
    ∃ ds : List Criterion,
      b.applyAll (cs.map call) = { b with statements := b.statements.pushAll (ds.map statement) } ∧
      b.apply (call (.group j cs)) =
        { b with statements := b.statements.pushAll ([.nested ds j k].map statement) } := by
  rw [applyAll_conditions hk b hcs] at h ⊢
  obtain ⟨hb, hg⟩ := Option.or_eq_none_iff.mp h
  refine ⟨_, by rw [hb, hg]; rfl, ?_⟩
  rw [apply_condition hk b rfl, Group.add, Group.criteria_push, Group.error_push,
    Group.refusals_result, Group.result, hb, hg]
  rfl

end Conditions

end Builder

/-! ## Conditions in parentheses -/

/-- Conditions in parentheses; empty text stays empty. -/
def Fragment.parenthesized (f : Fragment) : Fragment :=
  if f.sql.isEmpty then .empty else ofText "(" ++ f ++ ofText ")"

theorem Fragment.trim_eq_self {f : Fragment} (h : Text.Snug f.sql) : f.trim = f := by
  unfold trim
  rw [Text.trim_eq_self h]

theorem Criterion.render_nested (p : TablePrefix) (cs : List Criterion) (k : Clause) :
    Criterion.render p [.nested cs .and k] = do
      return (← Criterion.render p cs).parenthesized := by
  simp only [render, predicates, predicate?, nested]
  cases predicates p cs with
  | error e => rfl
  | ok ps =>
    change Except.ok (conjoined (((groupPredicate (conjoined ps)).map (⟨.and, ·⟩)).toList ++ [])) =
      .ok (conjoined ps).parenthesized
    rw [List.append_nil]
    unfold groupPredicate Fragment.parenthesized
    split
    · rfl
    · exact congrArg Except.ok (Fragment.trim_eq_self (Text.snug_parenthesized (conjoined ps).sql))

/-! ## Queries with conditions in parentheses -/

/-- `r` is `q` with the conditions of the clause behind `head` in parentheses.
Without conditions neither has the clause. -/
structure Query.InParentheses (head keyword conditions : Text) (q r : Query) : Prop where
  kind : r.kind = q.kind
  bindings : r.bindings = q.bindings
  sql : (conditions = [] ∧ q.sql = head ∧ r.sql = head) ∨
    (conditions ≠ [] ∧ q.sql = head ++ keyword ++ conditions ∧
      r.sql = head ++ keyword ++ conditions.parenthesized)

theorem Query.inParentheses (before : Fragment) (keyword : Text) (kind : QueryKind) (f : Fragment) :
    Query.InParentheses before.sql keyword f.sql ⟨before ++ conditionClause keyword f, kind⟩
      ⟨before ++ conditionClause keyword f.parenthesized, kind⟩ := by
  unfold conditionClause Fragment.parenthesized
  by_cases hf : f.sql = []
  · simp only [hf, List.isEmpty_nil]
    exact ⟨rfl, rfl, .inl ⟨rfl, by simp [Query.sql], by simp [Query.sql, Fragment.empty]⟩⟩
  · have hisEmpty : f.sql.isEmpty = false := by simpa using hf
    simp only [hisEmpty]
    refine ⟨rfl, by simp [Query.bindings], .inr ⟨hf, by simp [Query.sql], ?_⟩⟩
    simp [Query.sql, Text.parenthesized]

namespace Statements

variable {p : TablePrefix} {t : TableRef} {ds : List Criterion}

theorem select_filters : ({ tables := [t], filters := ds } : Statements).select p = do
    let f ← Criterion.render p ds
    return ⟨ofText ("SELECT * FROM " ++ t.text p) ++ conditionClause " WHERE " f, .select⟩ := by
  simp only [select, selectFragment]
  cases Criterion.render p ds with
  | error e => rfl
  | ok f =>
    change Except.ok (Query.mk (ofText ("SELECT * FROM " ++ t.text p) ++ .empty ++
      conditionClause " WHERE " f ++ .empty ++ .empty ++ .empty) .select) = _
    simp only [Fragment.append_empty]
    rfl

theorem select_havings : ({ tables := [t], havings := ds } : Statements).select p = do
    let f ← Criterion.render p ds
    return ⟨ofText ("SELECT * FROM " ++ t.text p) ++ conditionClause " HAVING " f, .select⟩ := by
  simp only [select, selectFragment]
  cases Criterion.render p ds with
  | error e => rfl
  | ok f =>
    change Except.ok (Query.mk (ofText ("SELECT * FROM " ++ t.text p) ++ .empty ++ .empty ++ .empty ++
      conditionClause " HAVING " f ++ .empty) .select) = _
    simp only [Fragment.append_empty]
    rfl

theorem delete_filters : ({ tables := [t], filters := ds } : Statements).delete p = do
    let f ← Criterion.render p ds
    return ⟨ofText ("DELETE FROM " ++ t.text p) ++ conditionClause " WHERE " f, .delete⟩ := by
  simp only [delete, restriction]
  cases Criterion.render p ds with
  | error e => rfl
  | ok f =>
    change Except.ok (Query.mk (ofText ("DELETE FROM " ++ t.text p) ++
      (conditionClause " WHERE " f ++ .empty)) .delete) = _
    rw [Fragment.append_empty]
    rfl

theorem update_filters (row : Row) : ({ tables := [t], filters := ds } : Statements).update p row = do
    row.check
    let f ← Criterion.render p ds
    return ⟨ofText ("UPDATE " ++ t.text p ++ " SET ") ++ row.assignments ++
      conditionClause " WHERE " f, .update⟩ := by
  simp only [update, restriction]
  cases row.check with
  | error e => rfl
  | ok _ => cases Criterion.render p ds with
    | error e => rfl
    | ok f =>
      change Except.ok (Query.mk (ofText ("UPDATE " ++ t.text p ++ " SET ") ++ row.assignments ++
        (conditionClause " WHERE " f ++ .empty)) .update) = _
      rw [Fragment.append_empty]
      rfl

end Statements

/-- `r` is `q` with the text of the conditions `ds` in parentheses. -/
def Query.Wraps (p : TablePrefix) (ds : List Criterion) (head keyword : Text) (q r : Query) : Prop :=
  ∃ f, Criterion.render p ds = .ok f ∧ Query.InParentheses head keyword f.sql q r

theorem Query.Wraps.spelled {p : TablePrefix} {ds : List Criterion} {head keyword text : Text}
    {q r : Query} (h : Query.Wraps p ds head keyword q r)
    (hds : (Criterion.render p ds).map Fragment.sql = .ok text) (htext : text ≠ []) :
    r.bindings = q.bindings ∧ q.sql = head ++ keyword ++ text ∧
      r.sql = head ++ keyword ++ text.parenthesized := by
  obtain ⟨f, hf, hwraps⟩ := h
  rw [hf] at hds
  obtain rfl : f.sql = text := Except.ok.inj hds
  exact ⟨hwraps.bindings, hwraps.sql.elim (fun hnone => absurd hnone.1 htext) And.right⟩

theorem Query.wraps_render (p : TablePrefix) (ds : List Criterion) (k : Clause) (before : Fragment)
    (keyword : Text) (kind : QueryKind) :
    Alike (Query.Wraps p ds before.sql keyword)
      (do
        let f ← Criterion.render p ds
        return ⟨before ++ conditionClause keyword f, kind⟩)
      (do
        let f ← Criterion.render p [.nested ds .and k]
        return ⟨before ++ conditionClause keyword f, kind⟩) := by
  rw [Criterion.render_nested]
  cases h : Criterion.render p ds with
  | error e => rfl
  | ok f => exact ⟨f, h, Query.inParentheses before keyword kind f⟩

namespace Builder

/-! ## Builders -/

/-- A builder on one table. -/
def onTable (config : Config) (table : Field) (asName : Option Text) : Builder :=
  applyAll { config } [.tables [(table, asName)]]

variable {config : Config} {table : Field} {asName : Option Text} {cs : List Condition}

theorem error_eq_none_of_applyAll {b : Builder} {calls : List Call}
    (h : (b.applyAll calls).error = none) : b.error = none := by
  rw [applyAll_eq_record] at h
  exact (Option.or_eq_none_iff.mp h).1

theorem onTable_of_error (h : (onTable config table asName).error = none) :
    ∃ t, TableRef.make table asName = .ok t ∧
      onTable config table asName = { config, statements := { tables := [t] } } := by
  have hstart : onTable config table asName =
      record { config } (Statement.table <$> TableRef.make table asName) := rfl
  rw [hstart] at h ⊢
  cases ht : TableRef.make table asName with
  | error e =>
    rw [ht] at h
    cases h
  | ok t => exact ⟨t, rfl, rfl⟩

/-- Conditions of a builder on one table, asked one by one and as a group:
`put` has a table and the conditions in their list. -/
theorem conditions_nested {k : Clause} {call : Condition → Call} {statement : Criterion → Statement}
    (put : TableRef → List Criterion → Statements) (hempty : ∀ t, { tables := [t] } = put t [])
    (hput : ∀ t ds d, (put t ds).push (statement d) = put t (ds ++ [d]))
    (hk : AskedWith k call statement) (hcs : ∀ c ∈ cs, c.clause k = k)
    (h : ((onTable config table asName).applyAll (cs.map call)).error = none) :
    ∃ t ds, TableRef.make table asName = .ok t ∧
      (onTable config table asName).applyAll (cs.map call) = { config, statements := put t ds } ∧
      (onTable config table asName).apply (call (.group .and cs)) =
        { config, statements := put t [.nested ds .and k] } := by
  obtain ⟨t, ht, hstart⟩ := onTable_of_error (error_eq_none_of_applyAll h)
  obtain ⟨ds, hdirect, hnested⟩ := apply_group hk .and hcs h
  rw [hstart, hempty, Statements.pushAll_map (hput t)] at hdirect hnested
  rw [hstart, hempty]
  exact ⟨t, ds, ht, hdirect, hnested⟩

/-- **A nested group is the same conditions in parentheses.** Ask a builder on
one table for conditions one by one, or for a group of them, where those handed
in ready-made are for the clause that they are asked for in. Both record the
same error or neither does. Without an error, a query of either fails with the
same error or compiles, with the same bindings and the text of the conditions
in parentheses in one of them, and without the clause in both if that text is
empty. So it is for WHERE in every query, and for HAVING in a SELECT; writes
have no HAVING. -/
theorem nested_in_parentheses (config : Config) (table : Field) (asName : Option Text)
    (cs : List Condition) :
    let p := config.toTablePrefix
    let start := onTable config table asName
    ((∀ c ∈ cs, c.clause .filter = .filter) →
     let direct := start.applyAll (cs.map .filter)
     let nested := start.apply (.filter (.group .and cs))
     direct.error = nested.error ∧
     (direct.error = none → ∃ t, TableRef.make table asName = .ok t ∧
      Alike (Query.Wraps p direct.statements.filters ("SELECT * FROM " ++ t.text p) " WHERE ")
        (direct.query .select) (nested.query .select) ∧
      Alike (Query.Wraps p direct.statements.filters ("DELETE FROM " ++ t.text p) " WHERE ")
        (direct.query .delete) (nested.query .delete) ∧
      ∀ row, Alike (Query.Wraps p direct.statements.filters
        ("UPDATE " ++ t.text p ++ " SET " ++ (Row.assignments row).sql) " WHERE ")
        (direct.query (.update row)) (nested.query (.update row)))) ∧
    ((∀ c ∈ cs, c.clause .having = .having) →
     let direct := start.applyAll (cs.map .having)
     let nested := start.apply (.having (.group .and cs))
     direct.error = nested.error ∧
     (direct.error = none → ∃ t, TableRef.make table asName = .ok t ∧
      Alike (Query.Wraps p direct.statements.havings ("SELECT * FROM " ++ t.text p) " HAVING ")
        (direct.query .select) (nested.query .select) ∧
      direct.query .delete = nested.query .delete ∧
      ∀ row, direct.query (.update row) = nested.query (.update row))) := by
  intro p start
  constructor
  · intro hcs
    refine ⟨error_apply_group askedWith_filter start .and hcs, fun h => ?_⟩
    obtain ⟨t, ds, ht, hdirect, hnested⟩ := conditions_nested
      (fun t ds => { tables := [t], filters := ds }) (fun _ => rfl) (fun _ _ _ => rfl)
      askedWith_filter hcs h
    rw [hdirect, hnested]
    refine ⟨t, ht, ?_, ?_, fun row => ?_⟩
    · rw [query_select rfl, query_select rfl, Statements.select_filters, Statements.select_filters]
      exact Query.wraps_render p ds .filter (ofText ("SELECT * FROM " ++ t.text p)) " WHERE " .select
    · rw [query_delete rfl, query_delete rfl, Statements.delete_filters, Statements.delete_filters]
      exact Query.wraps_render p ds .filter (ofText ("DELETE FROM " ++ t.text p)) " WHERE " .delete
    · rw [query_update rfl, query_update rfl, Statements.update_filters, Statements.update_filters]
      exact AlikeBy.bind_same Eq.refl fun _ => Query.wraps_render p ds .filter
        (ofText ("UPDATE " ++ t.text p ++ " SET ") ++ Row.assignments row) " WHERE " .update
  · intro hcs
    refine ⟨error_apply_group askedWith_having start .and hcs, fun h => ?_⟩
    obtain ⟨t, ds, ht, hdirect, hnested⟩ := conditions_nested
      (fun t ds => { tables := [t], havings := ds }) (fun _ => rfl) (fun _ _ _ => rfl)
      askedWith_having hcs h
    rw [hdirect, hnested]
    refine ⟨t, ht, ?_, rfl, fun _ => rfl⟩
    rw [query_select rfl, query_select rfl, Statements.select_havings, Statements.select_havings]
    exact Query.wraps_render p ds .having (ofText ("SELECT * FROM " ++ t.text p)) " HAVING " .select

/-- A comparison, and a group with an absent condition in it and one handed in
ready-made; inside of a group it does not matter for which clause. -/
def adults : List Condition :=
  [.compare .and (.column (.name "age")) ">" (.plain (.int 17)),
    .group .or [.absent, .compare .and (.column (.name "kind")) "=" (.plain (.string "a")),
      .given (.ok (.raw (ofText "b") .or .joinOn))]]

theorem nested_in_parentheses_sample :
    let start := onTable {} (.column (.name "users")) none
    ((∀ c ∈ adults, c.clause .filter = .filter) ∧
     let direct := start.applyAll (adults.map .filter)
     let nested := start.apply (.filter (.group .and adults))
     direct.error = none ∧ nested.error = none ∧ ∃ q r,
      direct.query .select = .ok q ∧ nested.query .select = .ok r ∧ r.bindings = q.bindings ∧
      q.sql = "SELECT * FROM users WHERE age > %d OR (kind = %s OR b)".toList ∧
      r.sql = "SELECT * FROM users WHERE (age > %d OR (kind = %s OR b))".toList) ∧
    ((∀ c ∈ adults, c.clause .having = .having) ∧
     let direct := start.applyAll (adults.map .having)
     let nested := start.apply (.having (.group .and adults))
     direct.error = none ∧ nested.error = none ∧ ∃ q r,
      direct.query .select = .ok q ∧ nested.query .select = .ok r ∧ r.bindings = q.bindings ∧
      q.sql = "SELECT * FROM users HAVING age > %d OR (kind = %s OR b)".toList ∧
      r.sql = "SELECT * FROM users HAVING (age > %d OR (kind = %s OR b))".toList) := by
  intro start
  have hclause : ∀ k, ∀ c ∈ adults, c.clause k = k := by simp [adults, Condition.clause, Condition.compare]
  obtain ⟨hwhere, hhaving⟩ := nested_in_parentheses {} (.column (.name "users")) none adults
  obtain ⟨hfilter, hfilters⟩ := hwhere (hclause .filter)
  obtain ⟨hhaving, hhavings⟩ := hhaving (hclause .having)
  obtain ⟨t, ht, hselect, -⟩ := hfilters rfl
  obtain ⟨t', ht', hselect', -⟩ := hhavings rfl
  obtain rfl : t = ⟨.named "users", none⟩ := Except.ok.inj (ht.symm.trans rfl)
  obtain rfl : t' = ⟨.named "users", none⟩ := Except.ok.inj (ht'.symm.trans rfl)
  constructor
  · obtain ⟨r, hr, hwraps⟩ := hselect.of_ok rfl
    exact ⟨hclause .filter, rfl, hfilter.symm.trans rfl, _, r, rfl, hr,
      hwraps.spelled (by decide +kernel) (by decide)⟩
  · obtain ⟨r, hr, hwraps⟩ := hselect'.of_ok rfl
    exact ⟨hclause .having, rfl, hhaving.symm.trans rfl, _, r, rfl, hr,
      hwraps.spelled (by decide +kernel) (by decide)⟩

/-- A condition made for HAVING is asked for in WHERE: the builder has it in
HAVING, and the group has it in WHERE. One made for ON the builder refuses, and
the group takes it. -/
theorem given_kept_in_group :
    let start := onTable {} (.column (.name "t")) none
    let given (k : Clause) : Condition := .given (.ok (.raw (ofText "x") .and k))
    (let direct := start.applyAll [.filter (given .having)]
     let nested := start.apply (.filter (.group .and [given .having]))
     direct.error = none ∧ nested.error = none ∧ ∃ q r,
      direct.query .select = .ok q ∧ nested.query .select = .ok r ∧
      q.sql = "SELECT * FROM t HAVING x".toList ∧ r.sql = "SELECT * FROM t WHERE (x)".toList ∧
      ¬ Query.Wraps {} direct.statements.filters "SELECT * FROM t" " WHERE " q r) ∧
    (start.applyAll [.filter (given .joinOn)]).error = some (.criterion .conditionOutsideJoin) ∧
    (start.apply (.filter (.group .and [given .joinOn]))).error = none := by
  refine ⟨⟨rfl, rfl, _, _, rfl, rfl, by decide +kernel, by decide +kernel, ?_⟩, rfl, rfl⟩
  rintro ⟨f, hf, hwraps⟩
  -- the builder has nothing in WHERE, so neither query could have
  obtain rfl : f = .empty := (Except.ok.inj hf).symm
  rcases hwraps.sql with ⟨-, hsql, -⟩ | ⟨hne, -⟩
  · revert hsql
    decide +kernel
  · exact hne rfl

end Builder

end BoundSql
