/-
Runs of a builder: lists that only grow, and a first error that stays.

What a call is accepted for and what it is refused for is read off the call
itself (`Call.pushes`, `Call.errors`), with a group or a join taken or refused
as a whole. Every call pushes the one and leaves the rest of the statements as
they were; the error of a builder is the first of all refusals, in the order of
the calls; and with an error, nothing can be asked for but that error.
-/
import BoundSql.Proofs.Collecting
import BoundSql.Proofs.RunFacts

namespace BoundSql

/-! ## What a call is accepted and refused for -/

/-- The error of a condition on its own: that of the first single condition
refused in it, depth first, or that it is for ON, as one handed in ready-made may
be. -/
def Condition.error? (k : Clause) (c : Condition) : Option Error :=
  (refusals (c.asked k)).head?.or (refusals (Group.add { clause := k } c).statements).head?

/-- The error of a join: that of the first condition refused, else that of its
table, else that it has no condition where it needs one. -/
def Join.error? (kind : JoinKind) (table : Field) (parts : List JoinPart) : Option Error :=
  ((refusals (Condition.allAsked .joinOn (JoinPart.conditions parts))).head?.or
    (refusals [TableRef.make table (JoinPart.asName parts)]).head?).or
    (if (JoinPart.conditions parts).isEmpty && kind != .cross then
      some (.criterion (.conditionMissing kind)) else none)

namespace Call

/-- The errors of a call, one for each statement refused. -/
def errors : Call → List Error
  | .tables refs => refusals (refs.map fun ref => TableRef.make ref.1 ref.2)
  | .select columns => refusals (columns.map fun column => Projection.make column.1 column.2)
  | .join kind table parts => (Join.error? kind table parts).toList
  | .filter c => (c.error? .filter).toList
  | .having c => (c.error? .having).toList
  | .groupBy field => refusals [Grouping.make field]
  | .orderBy field direction => refusals [SortKey.make field direction]
  | .paginate page size => refusals [Statement.pageOf page size]
  | .onDuplicate row => refusals [row.check]
  | .distinct | .limit _ | .offset _ => []

/-- The statements of a call that are accepted. A condition is what a group
takes of it, put into the clause it is for, and a join is a whole or nothing. -/
def pushes : Call → List Statement
  | .tables refs => (accepted (refs.map fun ref => TableRef.make ref.1 ref.2)).map .table
  | .select columns =>
    (accepted (columns.map fun column => Projection.make column.1 column.2)).map .select
  | .distinct => [.distinct true]
  | .join kind table parts =>
    if (Join.error? kind table parts).isSome then []
    else (accepted [TableRef.make table (JoinPart.asName parts)]).map fun t =>
      .join ⟨t, kind, (Group.addAll { clause := .joinOn } (JoinPart.conditions parts)).criteria⟩
  | .filter c => accepted (Group.add { clause := .filter } c).statements
  | .having c => accepted (Group.add { clause := .having } c).statements
  | .groupBy field => (accepted [Grouping.make field]).map .groupBy
  | .orderBy field direction => (accepted [SortKey.make field direction]).map .orderBy
  | .limit n => [.limit (some n)]
  | .offset n => [.offset (some n)]
  | .paginate page size => accepted [Statement.pageOf page size]
  | .onDuplicate row => (accepted [row.check]).map fun _ => .onDuplicate row

/-- Whether a call asks for a statement for each element of a list. -/
def isList : Call → Bool
  | .tables _ | .select _ => true
  | _ => false

end Call

/-! ### Joins -/

/-- What is built for a clause is meant for it. -/
theorem Condition.criteria_clause {k : Clause} {cs : List Condition} {ds : List Criterion}
    (hcs : ∀ c ∈ cs, c.clause k = k) (h : Condition.criteria k cs = .ok ds) :
    ∀ d ∈ ds, d.clause = k := by
  induction cs generalizing ds with
  | nil =>
    cases h
    simp
  | cons c rest ih =>
    obtain ⟨hc, hrest⟩ := List.forall_mem_cons.mp hcs
    simp only [criteria, Except.bind_ok_iff, Except.pure_ok_iff] at h
    obtain ⟨r, hr, others, ho, rfl⟩ := h
    intro d hd
    rcases List.mem_append.mp hd with hd | hd
    · exact (Condition.criterion?_clause hr d (by simpa using hd)).trans hc
    · exact ih hrest ho d hd

/-- The conditions of a join are asked for in ON. -/
theorem JoinPart.clause_of_mem_conditions {parts : List JoinPart} {c : Condition}
    (h : c ∈ JoinPart.conditions parts) (k : Clause) : c.clause k = k := by
  obtain ⟨part, -, hpart⟩ := List.mem_filterMap.mp h
  cases part <;> cases hpart
  rfl

/-- None of the conditions of a join is absent, so it has as many as it is
built with. -/
theorem JoinPart.criteria_isEmpty {parts : List JoinPart} {ds : List Criterion}
    (h : Condition.criteria .joinOn (JoinPart.conditions parts) = .ok ds) :
    ds.isEmpty = (JoinPart.conditions parts).isEmpty := by
  cases hc : JoinPart.conditions parts with
  | nil =>
    rw [hc] at h
    cases h
    rfl
  | cons c rest =>
    have hmem : c ∈ JoinPart.conditions parts := by simp [hc]
    obtain ⟨part, -, hpart⟩ := List.mem_filterMap.mp hmem
    cases part with
    | named t => cases hpart
    | on j left op right =>
      obtain rfl := Option.some.inj hpart
      rw [hc] at h
      simp only [Condition.criteria, Condition.criterion?, Except.bind_ok_iff,
        Except.pure_ok_iff] at h
      obtain ⟨r, ⟨d, -, rfl⟩, others, -, rfl⟩ := h
      rfl

/-- A join is refused with the first of its errors, and else is made of its
table and all its conditions. -/
theorem Join.ofParts_eq (kind : JoinKind) (table : Field) (parts : List JoinPart) :
    (∃ e, Join.error? kind table parts = some e ∧ Join.ofParts kind table parts = .error e) ∨
    (Join.error? kind table parts = none ∧ ∃ t, TableRef.make table (JoinPart.asName parts) = .ok t ∧
      Join.ofParts kind table parts = .ok ⟨t, kind,
        (Group.addAll { clause := .joinOn } (JoinPart.conditions parts)).criteria⟩) := by
  have hresult := Group.result_addAll_nil .joinOn (JoinPart.conditions parts)
  have herror := Group.error_addAll (g := { clause := .joinOn }) (JoinPart.conditions parts)
  simp only [Option.none_or] at herror
  unfold Join.ofParts Join.error?
  rw [← hresult, ← herror]
  cases hg : (Group.addAll { clause := .joinOn } (JoinPart.conditions parts)).error with
  | some e => exact .inl ⟨e, rfl, by simp [Group.result, hg, bind, Except.bind]⟩
  | none =>
    simp only [Group.result, hg] at hresult ⊢
    cases ht : TableRef.make table (JoinPart.asName parts) with
    | error e => exact .inl ⟨e, rfl, rfl⟩
    | ok t =>
      have hclause : (Group.addAll { clause := .joinOn } (JoinPart.conditions parts)).criteria.any
          (·.clause != .joinOn) = false := by
        simpa using Condition.criteria_clause (fun c hc => JoinPart.clause_of_mem_conditions hc .joinOn)
          hresult.symm
      have hempty := JoinPart.criteria_isEmpty hresult.symm
      simp only [bind, Except.bind, Join.make, hclause, hempty]
      cases hmissing : (JoinPart.conditions parts).isEmpty && kind != .cross with
      | true => exact .inl ⟨_, rfl, rfl⟩
      | false => exact .inr ⟨rfl, t, rfl, rfl⟩

/-! ### Calls -/

/-- The statements of a call are those read off it. -/
theorem Call.statements_spec (call : Call) :
    accepted call.statements = call.pushes ∧ refusals call.statements = call.errors := by
  cases call with
  | tables refs =>
    have hmap : (Call.tables refs).statements =
        (refs.map fun ref => TableRef.make ref.1 ref.2).map (Statement.table <$> ·) := by
      rw [List.map_map]
      rfl
    rw [hmap]
    exact ⟨accepted_map _ _, refusals_map _ _⟩
  | select columns =>
    have hmap : (Call.select columns).statements =
        (columns.map fun column => Projection.make column.1 column.2).map (Statement.select <$> ·) := by
      rw [List.map_map]
      rfl
    rw [hmap]
    exact ⟨accepted_map _ _, refusals_map _ _⟩
  | join kind table parts =>
    simp only [Call.statements, pushes, errors]
    rcases Join.ofParts_eq kind table parts with ⟨e, he, hj⟩ | ⟨he, t, ht, hj⟩ <;> rw [hj, he]
    · exact ⟨rfl, rfl⟩
    · rw [ht]
      exact ⟨rfl, rfl⟩
  | filter c =>
    have hfilter := ofCondition_eq .filter c
    rwa [Group.error_add, Option.none_or] at hfilter
  | having c =>
    have hhaving := ofCondition_eq .having c
    rwa [Group.error_add, Option.none_or] at hhaving
  | groupBy field => exact ⟨accepted_map _ [Grouping.make field], refusals_map _ [Grouping.make field]⟩
  | orderBy field direction =>
    exact ⟨accepted_map _ [SortKey.make field direction], refusals_map _ [SortKey.make field direction]⟩
  | onDuplicate row =>
    simp only [Call.statements, pushes, errors, Statement.duplicateKey]
    cases row.check <;> exact ⟨rfl, rfl⟩
  | distinct | limit | offset | paginate => exact ⟨rfl, rfl⟩

/-- A call that is no list asks for one statement at most. -/
theorem Call.length_statements {call : Call} (h : call.isList = false) :
    call.statements.length ≤ 1 := by
  cases call with
  | tables | select => cases h
  | filter c | having c =>
    simp only [Call.statements]
    unfold ofCondition
    split <;> simp
  | distinct | join | groupBy | orderBy | limit | offset | paginate | onDuplicate => exact Nat.le_refl 1

/-- One statement is accepted or refused, not both. -/
theorem Call.pushes_eq_nil {call : Call} (hlist : call.isList = false) (h : call.errors ≠ []) :
    call.pushes = [] := by
  obtain ⟨hpushes, herrors⟩ := call.statements_spec
  have hlength := Call.length_statements hlist
  rw [← herrors] at h
  rw [← hpushes]
  match hs : call.statements with
  | [] => rfl
  | [.error e] => rfl
  | [.ok s] => exact absurd (by rw [hs]; rfl) h
  | _ :: _ :: _ =>
    rw [hs] at hlength
    simp at hlength

/-! ## Runs -/

namespace Builder

variable {b : Builder} {e : Error}

/-- A call pushes what it is accepted for, and its first error is kept unless
there is one already. -/
theorem apply_eq_pushes (b : Builder) (call : Call) :
    b.apply call = { b with
      statements := b.statements.pushAll call.pushes
      error := b.error.or call.errors.head? } := by
  obtain ⟨hpushes, herrors⟩ := call.statements_spec
  rw [apply_eq, hpushes, herrors]

/-- The error of a builder is the first of the refusals of its calls, unless
there was one before. -/
theorem error_applyAll (b : Builder) (calls : List Call) :
    (b.applyAll calls).error = b.error.or (calls.flatMap Call.errors).head? := by
  induction calls generalizing b with
  | nil => simp [applyAll]
  | cons call calls ih =>
    change ((b.apply call).applyAll calls).error = _
    rw [ih, apply_eq_pushes, List.flatMap_cons, List.head?_append, ← Option.or_assoc]

/-- The first error stays. -/
theorem error_applyAll_of_error (h : b.error = some e) (calls : List Call) :
    (b.applyAll calls).error = some e := by
  rw [error_applyAll, h, Option.some_or]

theorem insertQueries_of_error (h : b.error = some e) (rows : List Row) (mode : InsertMode) :
    b.insertQueries rows mode = .error e := by
  rw [insertQueries, checked_of_error h]
  rfl

theorem subquery_of_error (h : b.error = some e) (asName : Text) : b.subquery asName = .error e := by
  simp only [subquery, query_of_error h]
  rfl

end Builder

namespace Run

variable {e : Error}

theorem eval_query_of_error {b : Builder} (h : b.error = some e) (r : Builder.Request) (s : Session) :
    (query b r).eval s = (.error e, s) := by
  rw [query, Builder.query_of_error h]
  exact eval_compiled_error b.config e s

theorem eval_insertQueries_of_error {b : Builder} (h : b.error = some e) (rows : List Row)
    (mode : InsertMode) (s : Session) : (insertQueries b rows mode).eval s = (.error e, s) := by
  rw [insertQueries, Builder.checked_of_error h]
  exact eval_bind_error (eval_ofExcept _ s) _

theorem eval_aggregate_of_error {b : Builder} (h : b.error = some e) (x : Executor) (fn : Aggregate)
    (field : Field) (s : Session) : (aggregate x b fn field).eval s = (.error e, s) :=
  eval_bind_error (eval_query_of_error h _ s) _

/-- With an error nothing is sent and nothing logged. -/
theorem eval_action_of_error {b : Builder} (h : b.error = some e) (x : Executor) (a : Action)
    (s : Session) : (action x b a).eval s = (.error e, s) := by
  cases a with
  | rows | insert | update | delete => exact eval_bind_error (eval_query_of_error h _ s) _
  | firstRow =>
    have hone : (b.apply (.limit 1)).error = some e := by rw [Builder.apply_eq, h]; rfl
    exact eval_bind_error (eval_query_of_error hone _ s) _
  | aggregate fn field => exact eval_bind_error (eval_aggregate_of_error h x fn field s) _
  | count => exact eval_bind_error (eval_aggregate_of_error h x .count _ s) _
  | insertAll rows => exact eval_bind_error (eval_insertQueries_of_error h rows .insert s) _

end Run

namespace Builder

/-- **Lists that only grow and a first error that stays.** After any calls, one
more call leaves each list of statements as it was and puts behind it just what
the call is accepted for; a call refused for its one statement, be it a group, a
join, a paging or a row, leaves everything as it was. The error is the first of
the refusals so far, in the order of the calls, and there is none without a
refusal. Once there is an error, whatever is called afterwards it is the answer
to every query and every run, which sends nothing and logs nothing. -/
theorem run_kept (config : Config) (calls : List Call) :
    let b := applyAll { config } calls
    (∀ call, b.statements.Grown call.pushes (b.apply call).statements) ∧
    (∀ call, call.isList = false → call.errors ≠ [] → (b.apply call).statements = b.statements) ∧
    b.error = (calls.flatMap Call.errors).head? ∧
    ∀ e, b.error = some e → ∀ more,
      (b.applyAll more).error = some e ∧
      (∀ r, (b.applyAll more).query r = .error e) ∧
      (∀ rows mode, (b.applyAll more).insertQueries rows mode = .error e) ∧
      (∀ asName, (b.applyAll more).subquery asName = .error e) ∧
      ∀ x action s, (Run.action x (b.applyAll more) action).eval s = (.error e, s) := by
  intro b
  refine ⟨fun call => ?_, fun call hlist herrors => ?_, ?_, fun e he more => ?_⟩
  · rw [apply_eq_pushes]
    exact b.statements.grown_pushAll call.pushes
  · rw [apply_eq_pushes, Call.pushes_eq_nil hlist herrors]
    rfl
  · rw [error_applyAll, Option.none_or]
  · have hmore := error_applyAll_of_error he more
    exact ⟨hmore, fun r => query_of_error hmore r, fun rows mode => insertQueries_of_error hmore rows mode,
      fun asName => subquery_of_error hmore asName, fun x action s =>
        Run.eval_action_of_error hmore x action s⟩

/-- Calls refused in every way: a condition deep in groups, the table of a join,
a paging too far, one of two columns, a condition for ON and an error handed in. -/
def refusedCalls : List Call :=
  [.tables [(.column (.name "users"), none)],
    .filter (.group .or [.isNull .and (.column (.name "gone")),
      .group .and [.absent, .compare .and (.column (.name "id")) " " (.plain .null)],
      .compare .and (.group []) "=" (.plain .null)]),
    .join .left (.column (.name " ")) [.named "o"],
    .paginate 18446744073709551615 3,
    .select [(.group [], none), (.column (.name "id"), none)],
    .filter (.given (.ok (.raw (.ofText "a.id = b.id") .and .joinOn))),
    .filter (.given (.error (.statement (.reported "no name"))))]

theorem run_kept_sample :
    (applyAll {} refusedCalls).error = some (.criterion .blankOperator) ∧
    ((applyAll {} refusedCalls).apply (.having (.group .and [.absent]))).statements.havings.length = 1 ∧
    ((applyAll {} refusedCalls).apply (.paginate 18446744073709551615 3)).statements.limit = none ∧
    (applyAll {} (refusedCalls ++ [.distinct])).query .count = .error (.criterion .blankOperator) ∧
    (refusedCalls.flatMap Call.errors).length = 6 := by
  obtain ⟨hgrown, hrefused, herror, hkept⟩ := run_kept {} refusedCalls
  have hfirst : (applyAll {} refusedCalls).error = some (.criterion .blankOperator) := herror
  have hhaving := (hgrown (.having (.group .and [.absent]))).havings
  have hpage := hrefused (.paginate 18446744073709551615 3) rfl (by decide)
  have hcount := (hkept _ hfirst [.distinct]).2.1 .count
  refine ⟨hfirst, ?_, ?_, ?_, rfl⟩
  · rw [hhaving]
    rfl
  · rw [hpage]
    rfl
  · rw [applyAll, List.foldl_append]
    exact hcount

end Builder

end BoundSql
