/-
How runs come out.

A run ends with a result or an error and leaves a history that goes on where it
began (`Session.extend`). What is done next starts from there, and an error ends
everything. Compiling adds an event for each query that is there, and handing a
query to the executor adds what passes between the two (`exchange`).
-/
import BoundSql.Run.Action

namespace BoundSql

/-! ## Histories that go on -/

namespace Session

variable (s : Session) (es fs : List Entry)

/-- The session with more entries behind its history. -/
def extend : Session := ⟨s.history ++ es⟩

@[simp] theorem extend_nil : s.extend [] = s := by
  rw [extend, List.append_nil]

@[simp] theorem extend_extend : (s.extend es).extend fs = s.extend (es ++ fs) := by
  simp only [extend, List.append_assoc]

@[simp] theorem sent_extend : (s.extend es).sent = s.sent ++ es.filterMap Entry.query? :=
  List.filterMap_append

end Session

/-! ## Results and errors -/

namespace Run

variable {α β : Type} {e : Error} {s s' : Session}

theorem eval_ofExcept (x : Except Error α) (s : Session) : (ofExcept x).eval s = (x, s) := rfl

theorem eval_modify (f : Session → Session) (s : Session) :
    (modify f : Run PUnit).eval s = (.ok ⟨⟩, f s) := rfl

theorem eval_get (s : Session) : (get : Run Session).eval s = (.ok s, s) := rfl

theorem eval_bind_ok {r : Run α} {a : α} (h : r.eval s = (.ok a, s')) (f : α → Run β) :
    (r >>= f).eval s = (f a).eval s' := by
  unfold eval at h ⊢
  rw [ExceptT.run_bind, StateT.run_bind, h]
  rfl

theorem eval_bind_error {r : Run α} (h : r.eval s = (.error e, s')) (f : α → Run β) :
    (r >>= f).eval s = (.error e, s') := by
  unfold eval at h ⊢
  rw [ExceptT.run_bind, StateT.run_bind, h]
  rfl

/-- What is done with a result leaves the session as it is. -/
theorem eval_bind_pure {r : Run α} {x : Except Error α} (h : r.eval s = (x, s'))
    (f : α → Except Error β) : (r >>= fun a => ofExcept (f a)).eval s = (x >>= f, s') := by
  cases x with
  | ok a => exact eval_bind_ok h _
  | error e => exact eval_bind_error h _

theorem ofExcept_bind_pure (x : Except Error α) (f : α → β) :
    (ofExcept x >>= fun a => pure (f a) : Run β) = ofExcept (f <$> x) := by
  cases x <;> rfl

/-! ## Compiling -/

/-- The entry of a query that is compiled. -/
def compiledEntry (c : Config) (q : Query) : Entry :=
  .logged (.compiled q.kind q.bindings.length (shownSql c.maxLoggedSql q.sql))

theorem eval_compiled_ok (c : Config) (q : Query) (s : Session) :
    (compiled c (.ok q)).eval s = (.ok q, s.extend [compiledEntry c q]) := rfl

theorem eval_compiled_error (c : Config) (e : Error) (s : Session) :
    (compiled c (.error e)).eval s = (.error e, s) := rfl

/-- A query that is compiled is logged, and one that is refused leaves the session as it is. -/
theorem eval_query (b : Builder) (r : Builder.Request) (s : Session) :
    (∃ e, b.query r = .error e ∧ (query b r).eval s = (.error e, s)) ∨
    ∃ q, b.query r = .ok q ∧ (query b r).eval s = (.ok q, s.extend [compiledEntry b.config q]) := by
  rw [query]
  cases b.query r with
  | error e => exact .inl ⟨e, rfl, eval_compiled_error b.config e s⟩
  | ok q => exact .inr ⟨q, rfl, eval_compiled_ok b.config q s⟩

/-- Compiling sends nothing. -/
theorem sent_compiledEntries (c : Config) (qs : List Query) :
    (qs.map (compiledEntry c)).filterMap Entry.query? = [] := by
  induction qs with
  | nil => rfl
  | cons q rest ih => exact ih

theorem sent_extend_compiled (c : Config) (qs : List Query) (s : Session) :
    (s.extend (qs.map (compiledEntry c))).sent = s.sent := by
  rw [Session.sent_extend, sent_compiledEntries, List.append_nil]

/-! ## Handing over -/

/-- What passes when a query is handed to an executor that has received others
before: it is announced, it is received, and if the executor fails so is that. -/
def exchange (c : Config) (answer : List Query → Except Error α) (received : List Query)
    (q : Query) : List Entry :=
  [.logged (.executing q.kind q.bindings.length (shownSql c.maxLoggedSql q.sql)), .received q] ++
    match answer (received ++ [q]) with
    | .ok _ => []
    | .error e => [.logged (.failed q.kind (shownSql c.maxLoggedSql q.sql) e)]

theorem exchange_map (c : Config) (f : α → β) (answer : List Query → Except Error α)
    (received : List Query) (q : Query) :
    exchange c (fun received => f <$> answer received) received q = exchange c answer received q := by
  simp only [exchange]
  cases answer (received ++ [q]) <;> rfl

theorem eval_send (c : Config) (answer : List Query → Except Error α) (q : Query) (s : Session) :
    (send c answer q).eval s = (answer (s.sent ++ [q]), s.extend (exchange c answer s.sent q)) := by
  have hhanded : (s.log (.ofExecuting c q)).send q =
      s.extend [.logged (.ofExecuting c q), .received q] := Session.extend_extend s _ _
  have hsent : ((s.log (.ofExecuting c q)).send q).sent = s.sent ++ [q] := by
    rw [hhanded, Session.sent_extend]
    rfl
  rw [send, eval_bind_ok (eval_modify _ s), eval_bind_ok (eval_modify _ _), eval_bind_ok (eval_get _),
    hsent, exchange, ← Session.extend_extend]
  cases answer (s.sent ++ [q]) with
  | ok a =>
    rw [Session.extend_nil]
    exact congrArg (Prod.mk _) hhanded
  | error e =>
    rw [eval_bind_ok (eval_modify _ _), hhanded]
    rfl

end Run

end BoundSql
