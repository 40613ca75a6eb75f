/-
No filter is lost on a write.

A condition asked for goes through four hands: it is made or refused, recorded
by the builder, collected as a statement, and written down, where groups with
nothing in them are left out. `Condition.asked` reads the single conditions off
the calls themselves, and a deletion or an update has every one of them in its
WHERE clause, or is an error. A condition that is handed in ready-made on its
own is one of them only if it was made for WHERE.
-/
import BoundSql.Proofs.Leaves
import BoundSql.Proofs.Recording

namespace BoundSql

open Text (InOrder)

variable {p : TablePrefix}

/-! ## What calls ask for -/

mutual

/-- The single conditions in a condition, however deep in groups, each one made
or refused. -/
def Condition.asked (k : Clause) : Condition → List (Except Error Criterion)
  | .test j field op operand => [Criterion.make field op operand j k]
  | .literal j f => [.ok (.raw f j k)]
  | .group _ inner => Condition.allAsked k inner
  | .given criterion => [criterion]
  | .absent => []

def Condition.allAsked (k : Clause) : List Condition → List (Except Error Criterion)
  | [] => []
  | c :: rest => c.asked k ++ Condition.allAsked k rest

end

/-- The single conditions that a condition on its own asks for in WHERE. One for
ON has no place outside of a join. -/
def Condition.askedFilters (k : Clause) (c : Condition) : List (Except Error Criterion) :=
  match c.clause k with
  | .filter => c.asked k
  | .having => []
  | .joinOn => [.error (.criterion .conditionOutsideJoin)]

/-- The conditions a call asks for in WHERE. -/
def Call.asked : Call → List (Except Error Criterion)
  | .filter c => c.askedFilters .filter
  | .having c => c.askedFilters .having
  | _ => []

/-- The tests of the conditions that were made. -/
def leaves (asked : List (Except Error Criterion)) : List Test :=
  asked.flatMap fun
    | .ok c => c.tests
    | .error _ => []

theorem mem_leaves {t : Test} {asked : List (Except Error Criterion)} :
    t ∈ leaves asked ↔ ∃ c, .ok c ∈ asked ∧ t ∈ c.tests := by
  constructor
  · intro h
    obtain ⟨x, hx, ht⟩ := List.mem_flatMap.mp h
    cases x with
    | error e => cases ht
    | ok c => exact ⟨c, hx, ht⟩
  · rintro ⟨c, hc, ht⟩
    exact List.mem_flatMap.mpr ⟨.ok c, hc, ht⟩

theorem written_leaves {asked : List (Except Error Criterion)} (hmade : ∀ c, .ok c ∈ asked → c.Made)
    (hraw : ∀ f, .literal f ∈ leaves asked → Text.blank f.inlined = false) :
    ∀ t ∈ leaves asked, t.Written := by
  intro t ht
  obtain ⟨c, hc, htc⟩ := mem_leaves.mp ht
  exact (hmade c hc).written (fun f hf => hraw f (mem_leaves.mpr ⟨c, hc, hf⟩)) t htc

theorem leaves_append (xs ys : List (Except Error Criterion)) :
    leaves (xs ++ ys) = leaves xs ++ leaves ys := by
  simp [leaves]

mutual

/-- A condition that is built is built of conditions that were made, and has
their tests. -/
theorem Condition.criterion?_asked {k : Clause} : ∀ {c : Condition} {r : Option Criterion},
    c.criterion? k = .ok r →
      (∀ e, .error e ∉ c.asked k) ∧ Criterion.allTests r.toList = leaves (c.asked k)
  | .test j field op operand, r, h => by
    simp only [criterion?, Except.bind_ok_iff, Except.pure_ok_iff] at h
    obtain ⟨d, hd, rfl⟩ := h
    simp [asked, hd, leaves, Criterion.allTests]
  | .literal j f, r, h => by
    cases h
    simp [asked, leaves, Criterion.allTests, Criterion.raw]
  | .group j inner, r, h => by
    simp only [criterion?, Except.bind_ok_iff, Except.pure_ok_iff] at h
    obtain ⟨cs, hcs, rfl⟩ := h
    obtain ⟨hok, htests⟩ := Condition.criteria_asked hcs
    refine ⟨hok, ?_⟩
    simpa [asked, Criterion.nested, Criterion.allTests, Criterion.tests] using htests
  | .given criterion, r, h => by
    simp only [criterion?, Except.bind_ok_iff, Except.pure_ok_iff] at h
    obtain ⟨d, rfl, rfl⟩ := h
    simp [asked, leaves, Criterion.allTests]
  | .absent, r, h => by
    cases h
    simp [asked, leaves, Criterion.allTests]

theorem Condition.criteria_asked {k : Clause} : ∀ {cs : List Condition} {ds : List Criterion},
    Condition.criteria k cs = .ok ds →
      (∀ e, .error e ∉ Condition.allAsked k cs) ∧
        Criterion.allTests ds = leaves (Condition.allAsked k cs)
  | [], ds, h => by
    cases h
    simp [allAsked, leaves, Criterion.allTests]
  | c :: rest, ds, h => by
    simp only [criteria, Except.bind_ok_iff, Except.pure_ok_iff] at h
    obtain ⟨r, hr, others, ho, rfl⟩ := h
    obtain ⟨hok, htests⟩ := Condition.criterion?_asked hr
    obtain ⟨hok', htests'⟩ := Condition.criteria_asked ho
    constructor
    · intro e he
      exact (List.mem_append.mp he).elim (hok e) (hok' e)
    · rw [Criterion.allTests_append, htests, htests', allAsked, leaves_append]

end

/-! ## What a builder collects -/

/-- The filters among statements that were accepted. -/
def acceptedFilters (xs : List (Except Error Statement)) : List Criterion :=
  xs.flatMap fun
    | .ok (.filter c) => [c]
    | _ => []

theorem acceptedFilters_eq (xs : List (Except Error Statement)) :
    acceptedFilters xs = (accepted xs).filterMap Statement.filter? := by
  induction xs with
  | nil => rfl
  | cons x xs ih => cases x with
    | error e => exact ih
    | ok s => cases s with
      | filter c => exact congrArg (c :: ·) ih
      | _ => exact ih

theorem acceptedFilters_append (xs ys : List (Except Error Statement)) :
    acceptedFilters (xs ++ ys) = acceptedFilters xs ++ acceptedFilters ys := by
  simp [acceptedFilters]

theorem acceptedFilters_eq_nil {xs : List (Except Error Statement)}
    (h : ∀ d, .ok (.filter d) ∉ xs) : acceptedFilters xs = [] := by
  refine List.flatMap_eq_nil_iff.mpr fun x hx => ?_
  split
  next d => exact absurd hx (h d)
  next => rfl

theorem Condition.clause_of_absent {k : Clause} {c : Condition} (h : c.criterion? k = .ok none) :
    c.clause k = k := by
  cases c with
  | given criterion => cases criterion <;> cases h
  | test | literal | group | absent => rfl

/-- A condition that is not refused is collected for what it asks for in WHERE. -/
theorem Call.acceptedFilters_ofCondition {k : Clause} (hk : k ≠ .joinOn) {c : Condition}
    (h : ∀ e, .error e ∉ ofCondition k c) :
    (∀ e, .error e ∉ c.askedFilters k) ∧
      Criterion.allTests (acceptedFilters (ofCondition k c)) = leaves (c.askedFilters k) := by
  rcases ofCondition_spec (k := k) (c := c) with ⟨e, -, hs⟩ | ⟨r, hr, hs⟩
  · exact absurd (by simp [hs]) (h e)
  rw [hs] at h ⊢
  unfold Condition.askedFilters
  cases r with
  | none =>
    obtain ⟨hok, htests⟩ := Condition.criterion?_asked hr
    rw [Condition.clause_of_absent hr]
    cases k with
    | filter => exact ⟨hok, htests⟩
    | having => exact ⟨by simp, rfl⟩
    | joinOn => exact absurd rfl hk
  | some d =>
    rw [← Condition.criterion?_clause hr d rfl]
    cases hd : d.clause with
    | filter =>
      obtain ⟨hok, htests⟩ := Condition.criterion?_asked hr
      refine ⟨hok, htests ▸ ?_⟩
      simp [acceptedFilters, Criterion.statement, hd]
    | having =>
      refine ⟨by simp, ?_⟩
      simp [acceptedFilters, Criterion.statement, hd, leaves, Criterion.allTests]
    | joinOn => exact absurd (by simp [Criterion.statement, hd]) (h (.criterion .conditionOutsideJoin))

/-- A call that is not refused collects what it asks for in WHERE. -/
theorem Call.acceptedFilters_statements {call : Call} (h : ∀ e, .error e ∉ call.statements) :
    (∀ e, .error e ∉ call.asked) ∧
      Criterion.allTests (acceptedFilters call.statements) = leaves call.asked := by
  have hother (hpart : call.part ≠ .filters) : acceptedFilters call.statements = [] :=
    acceptedFilters_eq_nil fun d hd => hpart (part_of_mem_statements hd).symm
  cases call with
  | filter c => exact acceptedFilters_ofCondition (k := .filter) nofun h
  | having c => exact acceptedFilters_ofCondition (k := .having) nofun h
  | _ => exact ⟨by simp [asked], by rw [hother nofun]; rfl⟩

theorem acceptedFilters_calls {calls : List Call}
    (h : ∀ e, .error e ∉ calls.flatMap Call.statements) :
    (∀ e, .error e ∉ calls.flatMap Call.asked) ∧
      Criterion.allTests (acceptedFilters (calls.flatMap Call.statements)) =
        leaves (calls.flatMap Call.asked) := by
  induction calls with
  | nil => exact ⟨by simp, rfl⟩
  | cons call calls ih =>
    simp only [List.flatMap_cons, List.mem_append, not_or] at h ⊢
    obtain ⟨hok, htests⟩ := Call.acceptedFilters_statements fun e => (h e).1
    obtain ⟨hok', htests'⟩ := ih fun e => (h e).2
    refine ⟨fun e => ⟨hok e, hok' e⟩, ?_⟩
    rw [acceptedFilters_append, Criterion.allTests_append, htests, htests', leaves_append]

namespace Builder

/-- Without an error, every condition asked for was made, and the filters of a
builder have the tests of the calls. -/
theorem filters_applyAll {config : Config} {calls : List Call}
    (h : (applyAll { config } calls).error = none) :
    (∀ e, .error e ∉ calls.flatMap Call.asked) ∧
      Criterion.allTests (applyAll { config } calls).statements.filters =
        leaves (calls.flatMap Call.asked) := by
  rw [applyAll_eq_record] at h ⊢
  have hfilters := (Statements.grown_pushAll {} (accepted (calls.flatMap Call.statements))).filters
  rw [hfilters, List.nil_append, ← acceptedFilters_eq]
  exact acceptedFilters_calls (refusals_eq_nil.mp (by simpa using h))

theorem query_of_error {b : Builder} {e : Error} (h : b.error = some e) (r : Request) :
    b.query r = .error e := by
  rw [query, checked_of_error h]
  rfl

/-- Only a builder without an error gives a query. -/
theorem error_eq_none {b : Builder} {r : Request} {q : Query} (h : b.query r = .ok q) :
    b.error = none := by
  cases he : b.error with
  | none => rfl
  | some e =>
    rw [query_of_error he] at h
    cases h

theorem query_select {b : Builder} (h : b.error = none) :
    b.query .select = b.statements.select b.config.toTablePrefix := by
  rw [query, checked_of_none h]
  rfl

theorem query_delete {b : Builder} (h : b.error = none) :
    b.query .delete = b.statements.delete b.config.toTablePrefix := by
  rw [query, checked_of_none h]
  rfl

theorem query_update {b : Builder} (h : b.error = none) (row : Row) :
    b.query (.update row) = b.statements.update b.config.toTablePrefix row := by
  rw [query, checked_of_none h]
  rfl

end Builder

/-! ## What a write is restricted to -/

/-- The WHERE clause of a write that has the tests `ts`: none without tests,
otherwise one in which all of them occur, in order. -/
def WhereClause (p : TablePrefix) (ts : List Test) (clause : Text) : Prop :=
  (ts = [] ∧ clause = []) ∨
    ts ≠ [] ∧ ∃ w texts, clause = " WHERE ".toList ++ w ∧ TestTexts p ts texts ∧ InOrder texts w

namespace Statements

variable {st : Statements}

theorem restriction_clause {f : Fragment}
    (h : st.restriction p = .ok f) (hts : ∀ t ∈ Criterion.allTests st.filters, t.Written) :
    ∃ clause, WhereClause p (Criterion.allTests st.filters) clause ∧
      f.sql = clause ++ numberClause " LIMIT " st.limit := by
  simp only [restriction, Except.bind_ok_iff, Except.pure_ok_iff] at h
  obtain ⟨filters, hf, rfl⟩ := h
  obtain ⟨⟨texts, ht, hin⟩, hempty⟩ := Criterion.render_shown hf hts
  refine ⟨(conditionClause " WHERE " filters).sql, ?_, rfl⟩
  unfold conditionClause
  split
  next hnil => exact .inl ⟨hempty.mp (List.isEmpty_iff.mp hnil), rfl⟩
  next hnil =>
    exact .inr ⟨fun h => hnil (List.isEmpty_iff.mpr (hempty.mpr h)), filters.sql, texts, rfl, ht, hin⟩

theorem delete_clause {q : Query} (h : st.delete p = .ok q)
    (hts : ∀ t ∈ Criterion.allTests st.filters, t.Written) :
    ∃ target clause, WhereClause p (Criterion.allTests st.filters) clause ∧
      st.targetText p = .ok target ∧
      q.sql = "DELETE FROM " ++ target ++ clause ++ numberClause " LIMIT " st.limit := by
  simp only [delete, Except.bind_ok_iff, Except.pure_ok_iff] at h
  obtain ⟨target, ht, f, hf, rfl⟩ := h
  obtain ⟨clause, hclause, hsql⟩ := restriction_clause hf hts
  refine ⟨target, clause, hclause, ht, ?_⟩
  simp only [Query.sql, Fragment.sql_append, Fragment.sql_ofText, hsql, List.append_assoc]

theorem update_clause {row : Row} {q : Query} (h : st.update p row = .ok q)
    (hts : ∀ t ∈ Criterion.allTests st.filters, t.Written) :
    ∃ target clause, WhereClause p (Criterion.allTests st.filters) clause ∧
      st.targetText p = .ok target ∧
      q.sql = "UPDATE " ++ target ++ " SET " ++ row.assignments.sql ++ clause ++
        numberClause " LIMIT " st.limit := by
  simp only [update, Except.bind_ok_iff, Except.pure_ok_iff] at h
  obtain ⟨target, ht, -, -, f, hf, rfl⟩ := h
  obtain ⟨clause, hclause, hsql⟩ := restriction_clause hf hts
  refine ⟨target, clause, hclause, ht, ?_⟩
  simp only [Query.sql, Fragment.sql_append, Fragment.sql_ofText, hsql, List.append_assoc]

end Statements

namespace Builder

/-- **No filter is lost on a write.** Whatever calls are made, in whatever
order: if one of the conditions they ask for in WHERE is refused, every write
is the recorded error. A deletion or an update that compiles has a WHERE clause
if and only if there is a test to put in it, and has the tests of all calls in
it, in the order of the calls. Bare raw conditions must not be blank; what is
handed in ready-made, on its own or in a group, could be made. -/
theorem filters_kept (config : Config) {calls : List Call}
    (hmade : ∀ c, .ok c ∈ calls.flatMap Call.asked → c.Made)
    (hraw : ∀ f, .literal f ∈ leaves (calls.flatMap Call.asked) → Text.blank f.inlined = false) :
    let b := applyAll { config } calls
    let p := config.toTablePrefix
    let ts := leaves (calls.flatMap Call.asked)
    (∀ e, .error e ∈ calls.flatMap Call.asked → ∃ first, b.error = some first ∧
      b.query .delete = .error first ∧ ∀ row, b.query (.update row) = .error first) ∧
    (∀ q, b.query .delete = .ok q → ∃ target clause, WhereClause p ts clause ∧
      b.statements.targetText p = .ok target ∧
      q.sql = "DELETE FROM " ++ target ++ clause ++ numberClause " LIMIT " b.statements.limit) ∧
    (∀ row q, b.query (.update row) = .ok q → ∃ target clause, WhereClause p ts clause ∧
      b.statements.targetText p = .ok target ∧
      q.sql = "UPDATE " ++ target ++ " SET " ++ row.assignments.sql ++ clause ++
        numberClause " LIMIT " b.statements.limit) := by
  intro b p ts
  have hwritten : ∀ t ∈ ts, t.Written := written_leaves hmade hraw
  refine ⟨fun e he => ?_, fun q hq => ?_, fun row q hq => ?_⟩
  · cases hfirst : b.error with
    | none => exact absurd he ((filters_applyAll hfirst).1 e)
    | some first => exact ⟨first, rfl, query_of_error hfirst _, fun row => query_of_error hfirst _⟩
  · have hnone := error_eq_none hq
    have htests : Criterion.allTests b.statements.filters = ts := (filters_applyAll hnone).2
    rw [query_delete hnone, config_applyAll] at hq
    rw [← htests] at hwritten ⊢
    exact Statements.delete_clause hq hwritten
  · have hnone := error_eq_none hq
    have htests : Criterion.allTests b.statements.filters = ts := (filters_applyAll hnone).2
    rw [query_update hnone, config_applyAll] at hq
    rw [← htests] at hwritten ⊢
    exact Statements.update_clause hq hwritten

/-- Calls with filters among others: a group with an empty group in it, a group
with nothing but an absent condition, a raw condition with blanks around it, a
group that is handed in ready-made, and a condition that is, but for HAVING. -/
def sampleCalls : List Call :=
  [.tables [(.column (.name "users"), none)],
    .filter (.compare .and (.column (.name "id")) " > " (.plain (.int 7))),
    .having (.isNull .and (.column (.name "gone"))),
    .filter (.compareSome (.column (.name "name")) "=" none),
    .filter (.group .orNot [.group .and [], .literal .and ⟨" rate %% %d = 0 ", [⟨.int 5, .int⟩]⟩,
      .isNotIn .or (.column (.name "kind")) []]),
    .filter (.group .and [.absent]),
    .filter (.isNull .andNot (.group [.leaf .and .filter (.unary (.name "banned") "IS NULL")])),
    .filter (.given (.ok (.raw (.ofText "n > 1") .or .having))), .limit 5]

/-- A filter refused inside a group. -/
def refusedCall : Call := .filter (.group .and [.compare .or (.column (.name "id")) " " (.plain .null)])

theorem filters_kept_sample :
    (∃ q target clause, (applyAll {} sampleCalls).query .delete = .ok q ∧
      WhereClause {} (leaves (sampleCalls.flatMap Call.asked)) clause ∧ clause ≠ [] ∧
      q.sql = "DELETE FROM " ++ target ++ clause ++ numberClause " LIMIT " (some 5)) ∧
    (leaves (sampleCalls.flatMap Call.asked)).length = 4 ∧
    ∃ e, (applyAll {} (sampleCalls ++ [refusedCall])).query .delete = .error e ∧
      (applyAll {} (sampleCalls ++ [refusedCall])).query (.update Row.sample) = .error e := by
  have hmade : ∀ c, .ok c ∈ sampleCalls.flatMap Call.asked → c.Made := by
    intro c hc
    rcases List.mem_cons.mp hc with hc | hc
    · exact .single hc.symm
    rcases List.mem_cons.mp hc with hc | hc
    · obtain rfl := Except.ok.inj hc
      exact .raw _ _ _
    rcases List.mem_cons.mp hc with hc | hc
    · exact .single hc.symm
    · obtain rfl := Except.ok.inj (List.mem_singleton.mp hc)
      refine .group _ _ _ fun d hd => ?_
      obtain rfl := List.mem_singleton.mp hd
      have hbanned : Criterion.make (.column (.name "banned")) "IS NULL" none .and .filter =
          .ok (.leaf .and .filter (.unary (.name "banned") "IS NULL")) := rfl
      exact .single hbanned
  have hraw : ∀ f, .literal f ∈ leaves (sampleCalls.flatMap Call.asked) →
      Text.blank f.inlined = false := by
    intro f hf
    rcases List.mem_cons.mp hf with hf | hf
    · cases hf
    rcases List.mem_cons.mp hf with hf | hf
    · obtain rfl := Test.literal.inj hf
      rfl
    rcases List.mem_cons.mp hf with hf | hf
    · cases hf
    · cases List.mem_singleton.mp hf
  have hmade' : ∀ c, .ok c ∈ (sampleCalls ++ [refusedCall]).flatMap Call.asked → c.Made := by
    intro c hc
    rw [List.flatMap_append, List.mem_append] at hc
    exact hc.elim (hmade c) fun hc => .single (List.mem_singleton.mp hc).symm
  have hraw' : ∀ f, .literal f ∈ leaves ((sampleCalls ++ [refusedCall]).flatMap Call.asked) →
      Text.blank f.inlined = false := by
    intro f hf
    rw [List.flatMap_append, leaves_append, List.mem_append] at hf
    exact hf.elim (hraw f) fun hf => absurd hf List.not_mem_nil
  obtain ⟨-, hdelete, -⟩ := filters_kept {} hmade hraw
  obtain ⟨hrefused, -, -⟩ := filters_kept {} hmade' hraw'
  obtain ⟨target, clause, hclause, -, hsql⟩ := hdelete _ rfl
  have hasked : .error (.criterion .blankOperator) ∈ (sampleCalls ++ [refusedCall]).flatMap Call.asked :=
    List.mem_flatMap.mpr ⟨refusedCall, by simp, List.mem_singleton.mpr rfl⟩
  obtain ⟨e, -, herror, hupdate⟩ := hrefused _ hasked
  refine ⟨⟨_, target, clause, rfl, hclause, ?_, hsql⟩, rfl, e, herror, hupdate _⟩
  rcases hclause with ⟨hnone, -⟩ | ⟨-, w, -, rfl, -⟩
  · cases hnone
  · simp

end Builder

end BoundSql
