/-
What an executor receives.

A query reaches the executor only once it is compiled, and several queries only
once all of them are; then they are sent in order, up to the first that the
executor fails on (`Sending`). A run passes on the error of its compiling, or
that of the executor, as it is (`Run.Outcome`).
-/
import BoundSql.Proofs.Batches
import BoundSql.Proofs.RunFacts
import BoundSql.Run.Script
import Mathlib.Data.UInt

namespace BoundSql

variable {α β : Type}

/-! ## Queries sent in order -/

/-- How far queries are sent to an executor that has received others before: all
of them, each with its answer, or up to the first that fails. The number is that
of the queries sent. -/
inductive Sending (answer : List Query → Except Error α) (received qs : List Query) :
    Nat → Except Error (List α) → Prop where
  | all (as : List α) (hlength : as.length = qs.length)
      (hanswers : ∀ i (h : i < as.length), answer (received ++ qs.take (i + 1)) = .ok as[i]) :
      Sending answer received qs qs.length (.ok as)
  | upTo (k : Nat) (e : Error) (hk : k < qs.length)
      (hbefore : ∀ i < k, ∃ a, answer (received ++ qs.take (i + 1)) = .ok a)
      (hlast : answer (received ++ qs.take (k + 1)) = .error e) :
      Sending answer received qs (k + 1) (.error e)

namespace Sending

variable {answer : List Query → Except Error α} {received rest qs : List Query} {q : Query} {a : α}
  {e : Error} {k : Nat} {r : Except Error (List α)}

theorem nil (answer : List Query → Except Error α) (received : List Query) :
    Sending answer received [] 0 (.ok []) := .all [] rfl nofun

theorem cons_error (h : answer (received ++ [q]) = .error e) (rest : List Query) :
    Sending answer received (q :: rest) 1 (.error e) :=
  .upTo 0 e (Nat.zero_lt_succ _) nofun h

theorem cons_ok (h : answer (received ++ [q]) = .ok a)
    (hrest : Sending answer (received ++ [q]) rest k r) :
    Sending answer received (q :: rest) (k + 1) (r.map (a :: ·)) := by
  have htake : ∀ i, received ++ (q :: rest).take (i + 1) = received ++ [q] ++ rest.take i := fun i => by
    rw [List.take_succ_cons, List.append_assoc, List.singleton_append]
  cases hrest with
  | all as hlength hanswers =>
    refine .all (a :: as) (by rw [List.length_cons, List.length_cons, hlength]) fun i hi => ?_
    rw [htake]
    cases i with
    | zero => simpa using h
    | succ i => exact hanswers i (Nat.lt_of_succ_lt_succ hi)
  | upTo k e hk hbefore hlast =>
    refine .upTo (k + 1) e (Nat.succ_lt_succ hk) (fun i hi => ?_) ?_
    · rw [htake]
      cases i with
      | zero => exact ⟨a, by simpa using h⟩
      | succ i => exact hbefore i (Nat.lt_of_succ_lt_succ hi)
    · rw [htake]
      exact hlast

/-- A single query is sent, whatever comes back. -/
theorem single (answer : List Query → Except Error α) (received : List Query) (q : Query) :
    Sending answer received [q] 1 ((answer (received ++ [q])).map ([·])) := by
  cases h : answer (received ++ [q]) with
  | error e => exact cons_error h []
  | ok a => exact cons_ok h (nil answer (received ++ [q]))

theorem map (f : α → β) (h : Sending answer received qs k r) :
    Sending (fun received => f <$> answer received) received qs k (r.map (List.map f)) := by
  cases h with
  | all as hlength hanswers =>
    refine .all (as.map f) (by rw [List.length_map, hlength]) fun i hi => ?_
    rw [List.getElem_map, hanswers i (by simpa using hi)]
    rfl
  | upTo k e hk hbefore hlast =>
    refine .upTo k e hk (fun i hi => ?_) ?_
    · obtain ⟨a, ha⟩ := hbefore i hi
      exact ⟨f a, by rw [ha]; rfl⟩
    · rw [hlast]
      rfl

end Sending

namespace Run

/-- What passes when queries are handed over one after the other. -/
def exchanges (c : Config) (answer : List Query → Except Error α) :
    List Query → List Query → List Entry
  | _, [] => []
  | received, q :: rest => exchange c answer received q ++ exchanges c answer (received ++ [q]) rest

theorem sent_exchange (c : Config) (answer : List Query → Except Error α) (received : List Query)
    (q : Query) : (exchange c answer received q).filterMap Entry.query? = [q] := by
  unfold exchange
  cases answer (received ++ [q]) <;> rfl

theorem sent_exchanges (c : Config) (answer : List Query → Except Error α) (received qs : List Query) :
    (exchanges c answer received qs).filterMap Entry.query? = qs := by
  induction qs generalizing received with
  | nil => rfl
  | cons q rest ih =>
    rw [exchanges, List.filterMap_append, sent_exchange, ih]
    rfl

/-- Queries are sent up to the first that fails, and their numbers added up. -/
theorem eval_sendAll (c : Config) (write : List Query → Except Error UInt64) (qs : List Query)
    (s : Session) : ∃ k r, Sending write s.sent qs k r ∧
      (sendAll c write qs).eval s = (r.map List.sum, s.extend (exchanges c write s.sent (qs.take k))) := by
  induction qs generalizing s with
  | nil =>
    refine ⟨0, .ok [], .nil write s.sent, ?_⟩
    rw [List.take_nil, exchanges, Session.extend_nil]
    rfl
  | cons q rest ih =>
    have hsend := eval_send c write q s
    rw [sendAll]
    cases hq : write (s.sent ++ [q]) with
    | error e =>
      refine ⟨1, .error e, .cons_error hq rest, ?_⟩
      rw [hq] at hsend
      rw [eval_bind_error hsend]
      simp [exchanges, Except.map]
    | ok n =>
      rw [hq] at hsend
      -- The rest is sent to an executor that has received this query too.
      obtain ⟨k, r, hrest, heval⟩ := ih (s.extend (exchange c write s.sent q))
      rw [Session.sent_extend, sent_exchange] at hrest heval
      refine ⟨k + 1, r.map (n :: ·), .cons_ok hq hrest, ?_⟩
      rw [eval_bind_ok hsend, List.take_succ_cons, exchanges, ← Session.extend_extend]
      cases r with
      | error e => exact eval_bind_error heval _
      | ok ns => exact eval_bind_ok heval _

/-! ## Compiling before sending -/

/-- A row is compiled and logged, then the next. -/
theorem eval_insertRows (c : Config) {st : Statements} {target : Text} (mode : InsertMode)
    (ht : st.targetText c.toTablePrefix = .ok target) {rows : List Row}
    (hrows : ∀ row ∈ rows, Row.check row = .ok ()) (s : Session) :
    (insertRows c st mode rows).eval s = (.ok (rows.map (st.rowQuery target mode)),
      s.extend ((rows.map (st.rowQuery target mode)).map (compiledEntry c))) := by
  induction rows generalizing s with
  | nil =>
    rw [List.map_nil, List.map_nil, Session.extend_nil]
    rfl
  | cons row rest ih =>
    obtain ⟨hrow, hrest⟩ := List.forall_mem_cons.mp hrows
    rw [insertRows, Statements.insertRow_of_check ht hrow, eval_bind_ok (eval_compiled_ok c _ s),
      eval_bind_ok (ih hrest _), Session.extend_extend]
    rfl

variable {b : Builder} {rows : List Row} {mode : InsertMode}

/-- A batch that is compiled is logged row by row. -/
theorem eval_insertQueries_ok {qs : List Query} (h : b.insertQueries rows mode = .ok qs) (s : Session) :
    (insertQueries b rows mode).eval s = (.ok qs, s.extend (qs.map (compiledEntry b.config))) := by
  obtain ⟨hb, t, hadmitted, rfl⟩ := Builder.insertQueries_eq_ok.mp h
  have hbatch : Insertion.batch rows = .ok ⟨rows⟩ := hadmitted.batch_eq
  rw [insertQueries, Builder.checked_of_none hb, hbatch, eval_bind_ok (eval_ofExcept (.ok _) s),
    eval_bind_ok (eval_ofExcept (.ok _) s)]
  exact eval_insertRows b.config mode (Statements.targetText_of_single hadmitted.tables_eq)
    hadmitted.check_eq_ok s

/-- A batch that is refused leaves nothing in the log, not even its first rows. -/
theorem eval_insertQueries_error {e : Error} (h : b.insertQueries rows mode = .error e)
    (s : Session) : (insertQueries b rows mode).eval s = (.error e, s) := by
  cases hb : b.error with
  | some e' =>
    rw [Builder.insertQueries, Builder.checked_of_error hb] at h
    obtain rfl : e' = e := Except.error.inj h
    rw [insertQueries, Builder.checked_of_error hb]
    exact eval_bind_error (eval_ofExcept (.error e') s) _
  | none =>
    rw [insertQueries, Builder.checked_of_none hb, eval_bind_ok (eval_ofExcept (.ok _) s)]
    rcases ((Builder.insertQueries_eq_error hb).mp h).batch_or_target with
      hbatch | ⟨hrows, hbatch, htarget⟩
    · rw [hbatch]
      exact eval_bind_error (eval_ofExcept (.error e) s) _
    · obtain ⟨first, rest, rfl⟩ := List.exists_cons_of_ne_nil hrows
      rw [hbatch, eval_bind_ok (eval_ofExcept (.ok _) s), insertRows,
        Statements.insertRow_of_no_target (htarget _)]
      exact eval_bind_error (eval_compiled_error b.config e s) _

end Run

/-! ## Actions -/

/-- The request of an action that runs a single query. -/
def Action.request? : Action → Option Builder.Request
  | .rows | .firstRow => some .select
  | .aggregate fn field => some (.aggregate fn field)
  | .count => some .count
  | .insert row => some (.insert row .insert)
  | .insertAll _ => none
  | .update row => some (.update row)
  | .delete => some .delete

theorem Action.request?_eq_none {a : Action} : a.request? = none ↔ ∃ rows, a = .insertAll rows := by
  cases a <;> simp [request?]

/-- The builder an action asks: for one row, a copy with the limit 1. -/
def Action.builder (b : Builder) : Action → Builder
  | .firstRow => b.apply (.limit 1)
  | _ => b

/-- What the executor says to the last of the queries received, asked the way of
an action. -/
def Executor.reply (x : Executor) (a : Action) (received : List Query) : Except Error Answer :=
  match a with
  | .rows => .rows <$> x.read received
  | .firstRow | .aggregate .. | .count => .row <$> x.readFirst received
  | .insert _ | .insertAll _ | .update _ | .delete => .number <$> x.write received

/-- What an action makes of the answer to a single query. -/
def Action.result : Action → Answer → Except Error Answer
  | .aggregate .., .row r => .ok (.value (r.bind (Json.Members.get? · "field")))
  | .count, .row r => .number <$> countOf (r.bind (Json.Members.get? · "field"))
  | _, answer => .ok answer

namespace Run

/-- A query is compiled, then sent, and something is made of the answer. -/
theorem eval_ask (b : Builder) (r : Builder.Request) (answer : List Query → Except Error α)
    (wrap : α → Answer) (f : Answer → Except Error Answer) (s : Session) :
    let run := query b r >>= fun q => send b.config answer q >>= fun a => ofExcept (f (wrap a))
    (∃ e, b.query r = .error e ∧ run.eval s = (.error e, s)) ∨
    ∃ q, b.query r = .ok q ∧ run.eval s = ((wrap <$> answer (s.sent ++ [q])) >>= f,
      s.extend (compiledEntry b.config q ::
        exchange b.config (fun received => wrap <$> answer received) s.sent q)) := by
  intro run
  rcases eval_query b r s with ⟨e, hquery, heval⟩ | ⟨q, hquery, heval⟩
  · exact .inl ⟨e, hquery, eval_bind_error heval _⟩
  · have hsend := eval_send b.config answer q (s.extend [compiledEntry b.config q])
    have hsent : (s.extend [compiledEntry b.config q]).sent = s.sent :=
      sent_extend_compiled b.config [q] s
    rw [hsent, Session.extend_extend] at hsend
    refine .inr ⟨q, hquery, ?_⟩
    rw [eval_bind_ok heval, eval_bind_pure hsend (fun a => f (wrap a)), exchange_map]
    cases answer (s.sent ++ [q]) <;> rfl

/-- The query of an action is compiled, and then sent once. -/
theorem eval_action (x : Executor) (b : Builder) {a : Action} {r : Builder.Request}
    (ha : a.request? = some r) (s : Session) :
    (∃ e, (a.builder b).query r = .error e ∧ (action x b a).eval s = (.error e, s)) ∨
    ∃ q, (a.builder b).query r = .ok q ∧ (action x b a).eval s =
      (x.reply a (s.sent ++ [q]) >>= a.result,
        s.extend (compiledEntry b.config q :: exchange b.config (x.reply a) s.sent q)) := by
  cases a with
  | rows =>
    cases ha
    exact eval_ask b .select x.read .rows (Action.result .rows) s
  | firstRow =>
    cases ha
    exact eval_ask (b.apply (.limit 1)) .select x.readFirst .row (Action.result .firstRow) s
  | count =>
    cases ha
    -- The aggregate is run for its value, of which a number is made afterwards.
    simp only [action, aggregate, bind_assoc, pure_bind, ofExcept_bind_pure]
    exact eval_ask b .count x.readFirst .row (Action.result .count) s
  | aggregate fn field =>
    cases ha
    simp only [action, aggregate, bind_assoc, pure_bind]
    exact eval_ask b (.aggregate fn field) x.readFirst .row (Action.result (.aggregate fn field)) s
  | insert row =>
    cases ha
    exact eval_ask b (.insert row .insert) x.write .number (Action.result (.insert row)) s
  | insertAll rows => cases ha
  | update row =>
    cases ha
    exact eval_ask b (.update row) x.write .number (Action.result (.update row)) s
  | delete =>
    cases ha
    exact eval_ask b .delete x.write .number (Action.result .delete) s

/-- The queries of a batch are all compiled, and then sent up to the first that
fails. -/
theorem eval_insertAll (x : Executor) (b : Builder) (rows : List Row) (s : Session) :
    (∃ e, b.insertQueries rows .insert = .error e ∧ (action x b (.insertAll rows)).eval s = (.error e, s)) ∨
    ∃ qs k answers, b.insertQueries rows .insert = .ok qs ∧ Sending x.write s.sent qs k answers ∧
      (action x b (.insertAll rows)).eval s = (answers.map fun ns => .number ns.sum,
        s.extend (qs.map (compiledEntry b.config) ++ exchanges b.config x.write s.sent (qs.take k))) := by
  rw [action]
  cases h : b.insertQueries rows .insert with
  | error e => exact .inl ⟨e, rfl, eval_bind_error (eval_insertQueries_error h s) _⟩
  | ok qs =>
    have hcompiled := eval_insertQueries_ok h s
    obtain ⟨k, answers, hsending, hsend⟩ :=
      eval_sendAll b.config x.write qs (s.extend (qs.map (compiledEntry b.config)))
    rw [sent_extend_compiled] at hsending hsend
    rw [Session.extend_extend] at hsend
    refine .inr ⟨qs, k, answers, rfl, hsending, ?_⟩
    rw [eval_bind_ok hcompiled]
    cases answers with
    | error e => exact eval_bind_error hsend _
    | ok ns => exact eval_bind_ok hsend _

/-! ## What the executor receives, and what comes back -/

/-- Numbers of rows are added up modulo the size of a word. -/
theorem toNat_sum (ns : List UInt64) : ns.sum.toNat = (ns.map UInt64.toNat).sum % 2 ^ 64 := by
  induction ns with
  | nil => rfl
  | cons n rest ih =>
    rw [List.sum_cons, UInt64.toNat_add, ih, List.map_cons, List.sum_cons, Nat.add_mod_mod]

/-- What an action comes to, and what it sends to an executor that has received
other queries before: nothing if a query is not compiled; else its one query; or
the queries of a batch, up to the first that fails. -/
inductive Outcome (x : Executor) (b : Builder) (received : List Query) :
    Action → Except Error Answer → List Query → Prop where
  | refused {a : Action} {r : Builder.Request} {e : Error} (ha : a.request? = some r)
      (hquery : (a.builder b).query r = .error e) : Outcome x b received a (.error e) []
  | failed {a : Action} {r : Builder.Request} {q : Query} {e : Error} (ha : a.request? = some r)
      (hquery : (a.builder b).query r = .ok q) (hreply : x.reply a (received ++ [q]) = .error e) :
      Outcome x b received a (.error e) [q]
  | answered {a : Action} {r : Builder.Request} {q : Query} {answer : Answer}
      (ha : a.request? = some r) (hquery : (a.builder b).query r = .ok q)
      (hreply : x.reply a (received ++ [q]) = .ok answer) :
      Outcome x b received a (a.result answer) [q]
  | batchRefused {rows : List Row} {e : Error} (hqueries : b.insertQueries rows .insert = .error e) :
      Outcome x b received (.insertAll rows) (.error e) []
  | batchFailed {rows : List Row} {qs : List Query} {k : Nat} {e : Error}
      (hqueries : b.insertQueries rows .insert = .ok qs)
      (hsending : Sending x.write received qs k (.error e)) :
      Outcome x b received (.insertAll rows) (.error e) (qs.take k)
  | batchAnswered {rows : List Row} {qs : List Query} {ns : List UInt64} {n : UInt64}
      (hqueries : b.insertQueries rows .insert = .ok qs)
      (hsending : Sending x.write received qs qs.length (.ok ns))
      (hn : (ns.map UInt64.toNat).sum < 2 ^ 64 → n.toNat = (ns.map UInt64.toNat).sum) :
      Outcome x b received (.insertAll rows) (.ok (.number n)) qs

/-- **An executor receives what is compiled, and only that.** An action whose
query is refused sends nothing; else it sends its one query and passes on what
the executor says, an error as it is. A batch is sent in order up to the first
query that fails, whose error it ends with; if none does it ends with the sum of
the numbers of rows, as long as that fits in a word. -/
theorem executor_discipline (x : Executor) (b : Builder) (a : Action) (s : Session) :
    ∃ queries, Outcome x b s.sent a ((action x b a).eval s).1 queries ∧
      ((action x b a).eval s).2.sent = s.sent ++ queries := by
  cases ha : a.request? with
  | some r =>
    rcases eval_action x b ha s with ⟨e, hquery, heval⟩ | ⟨q, hquery, heval⟩
    · rw [heval]
      exact ⟨[], .refused ha hquery, (List.append_nil _).symm⟩
    · rw [heval]
      refine ⟨[q], ?_, ?_⟩
      · cases hreply : x.reply a (s.sent ++ [q]) with
        | error e => exact .failed ha hquery hreply
        | ok answer => exact .answered ha hquery hreply
      · rw [Session.sent_extend, List.filterMap_cons, sent_exchange]
        rfl
  | none =>
    obtain ⟨rows, rfl⟩ := Action.request?_eq_none.mp ha
    rcases eval_insertAll x b rows s with ⟨e, hqueries, heval⟩ | ⟨qs, k, answers, hqueries, hsending, heval⟩
    · rw [heval]
      exact ⟨[], .batchRefused hqueries, (List.append_nil _).symm⟩
    · rw [heval]
      refine ⟨qs.take k, ?_, ?_⟩
      · cases answers with
        | error e => exact .batchFailed hqueries hsending
        | ok ns =>
          cases hsending with
          | all _ hlength hanswers =>
            rw [List.take_length]
            refine .batchAnswered hqueries (.all ns hlength hanswers) fun hsum => ?_
            rw [toNat_sum, Nat.mod_eq_of_lt hsum]
      · rw [Session.sent_extend, List.filterMap_append, sent_compiledEntries, sent_exchanges]
        rfl

/-- Of three rows, the second fails: two are sent. Without a table none is. -/
theorem executor_discipline_sample :
    let x := Script.executor { affected := [1], failOn := some 2, message := "deadlock" }
    let users : Builder := { statements := { tables := [⟨.named "users", none⟩] } }
    let rows : List Row := [[("id", .plain (.int 1))], [("id", .plain (.int 2))], [("id", .plain (.int 3))]]
    (∃ queries, Outcome x users [] (.insertAll rows) (.error (.execution (.reported "deadlock"))) queries ∧
      queries.length = 2) ∧
    Outcome x {} [] (.insertAll rows) (.error .noTable) [] := by
  intro x users rows
  obtain ⟨sent, houtcome, hsent⟩ := executor_discipline x users (.insertAll rows) {}
  obtain ⟨none, hrefused, hnone⟩ := executor_discipline x {} (.insertAll rows) {}
  refine ⟨⟨sent, houtcome, ?_⟩, ?_⟩
  · exact congrArg List.length hsent.symm
  · obtain rfl : none = [] := hnone.symm
    exact hrefused

end Run

end BoundSql
