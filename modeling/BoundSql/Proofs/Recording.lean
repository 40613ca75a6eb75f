/-
What calls ask for, and what a builder keeps of them.

A call asks for statements, each accepted or refused, and all for the part of
the query that it writes. The ones accepted are pushed whether or not others
were refused, and of the errors only the first one stays. So a whole run is told
by two lists: what was accepted, by which the statements have grown, and what
was refused.
-/
import BoundSql.Builder.Basic
import BoundSql.Proofs.CriterionFacts

namespace BoundSql

variable {α β : Type}

/-! ## Accepted and refused -/

/-- The results that are not errors. -/
def accepted (xs : List (Except Error α)) : List α := xs.filterMap Except.toOption

/-- The errors among results. -/
def refusals (xs : List (Except Error α)) : List Error :=
  xs.filterMap fun
    | .ok _ => none
    | .error e => some e

@[simp] theorem accepted_nil : accepted ([] : List (Except Error α)) = [] := rfl

@[simp] theorem accepted_cons_ok (a : α) (xs : List (Except Error α)) :
    accepted (.ok a :: xs) = a :: accepted xs := rfl

@[simp] theorem accepted_cons_error (e : Error) (xs : List (Except Error α)) :
    accepted (.error e :: xs) = accepted xs := rfl

@[simp] theorem refusals_nil : refusals ([] : List (Except Error α)) = [] := rfl

@[simp] theorem refusals_cons_ok (a : α) (xs : List (Except Error α)) :
    refusals (.ok a :: xs) = refusals xs := rfl

@[simp] theorem refusals_cons_error (e : Error) (xs : List (Except Error α)) :
    refusals (.error e :: xs) = e :: refusals xs := rfl

@[simp] theorem refusals_append (xs ys : List (Except Error α)) :
    refusals (xs ++ ys) = refusals xs ++ refusals ys := List.filterMap_append

/-- What is done with a result does not change whether it is one. -/
theorem accepted_map (f : α → β) (xs : List (Except Error α)) :
    accepted (xs.map (f <$> ·)) = (accepted xs).map f := by
  induction xs with
  | nil => rfl
  | cons x xs ih => cases x with
    | ok a => exact congrArg (f a :: ·) ih
    | error e => exact ih

theorem refusals_map (f : α → β) (xs : List (Except Error α)) :
    refusals (xs.map (f <$> ·)) = refusals xs := by
  induction xs with
  | nil => rfl
  | cons x xs ih => cases x with
    | ok a => exact ih
    | error e => exact congrArg (e :: ·) ih

@[simp] theorem accepted_map_ok (f : α → β) (xs : List α) :
    accepted (xs.map fun x => .ok (f x)) = xs.map f := by
  induction xs with
  | nil => rfl
  | cons x xs ih => exact congrArg (f x :: ·) ih

@[simp] theorem refusals_map_ok (f : α → β) (xs : List α) :
    refusals (xs.map fun x => .ok (f x)) = [] := by
  induction xs with
  | nil => rfl
  | cons x xs ih => exact ih

theorem refusals_eq_nil {xs : List (Except Error α)} :
    refusals xs = [] ↔ ∀ e, .error e ∉ xs := by
  induction xs with
  | nil => simp
  | cons x xs ih => cases x with
    | ok a => simp [ih]
    | error e => exact ⟨nofun, fun h => absurd List.mem_cons_self (h e)⟩

/-! ## Statements that grow -/

namespace Statement

def table? : Statement → Option TableRef
  | .table t => some t
  | _ => none

def select? : Statement → Option Projection
  | .select s => some s
  | _ => none

def filter? : Statement → Option Criterion
  | .filter c => some c
  | _ => none

def having? : Statement → Option Criterion
  | .having c => some c
  | _ => none

def join? : Statement → Option Join
  | .join j => some j
  | _ => none

def sortKey? : Statement → Option SortKey
  | .orderBy k => some k
  | _ => none

def grouping? : Statement → Option Grouping
  | .groupBy g => some g
  | _ => none

def distinct? : Statement → Option Bool
  | .distinct on => some on
  | _ => none

/-- The limit a statement sets, if it sets one; a limit may be set to none. -/
def limit? : Statement → Option (Option UInt64)
  | .limit n => some n
  | .page size _ => some (some size)
  | _ => none

def offset? : Statement → Option (Option UInt64)
  | .offset n => some n
  | .page _ start => some (some start)
  | _ => none

def onDuplicate? : Statement → Option Row
  | .onDuplicate row => some row
  | _ => none

end Statement

/-- The last of some settings, or what was set before them. -/
def lastSet {α : Type} (settings : List α) (before : α) : α := settings.getLast?.getD before

theorem lastSet_append {α : Type} (xs ys : List α) (before : α) :
    lastSet (xs ++ ys) before = lastSet ys (lastSet xs before) := by
  simp [lastSet, List.getLast?_append, Option.getD_or]

namespace Statements

theorem pushAll_append (st : Statements) (ss ts : List Statement) :
    st.pushAll (ss ++ ts) = (st.pushAll ss).pushAll ts := List.foldl_append

/-- `st'` is `st` with the statements `ss` pushed: each list goes on with those
of its clause, and each setting is the last one set. -/
structure Grown (st : Statements) (ss : List Statement) (st' : Statements) : Prop where
  tables : st'.tables = st.tables ++ ss.filterMap Statement.table?
  selects : st'.selects = st.selects ++ ss.filterMap Statement.select?
  filters : st'.filters = st.filters ++ ss.filterMap Statement.filter?
  havings : st'.havings = st.havings ++ ss.filterMap Statement.having?
  joins : st'.joins = st.joins ++ ss.filterMap Statement.join?
  sortKeys : st'.sortKeys = st.sortKeys ++ ss.filterMap Statement.sortKey?
  groupings : st'.groupings = st.groupings ++ ss.filterMap Statement.grouping?
  distinct : st'.distinct = lastSet (ss.filterMap Statement.distinct?) st.distinct
  limit : st'.limit = lastSet (ss.filterMap Statement.limit?) st.limit
  offset : st'.offset = lastSet (ss.filterMap Statement.offset?) st.offset
  onDuplicate : st'.onDuplicate = lastSet (ss.filterMap Statement.onDuplicate?) st.onDuplicate

theorem grown_push (st : Statements) (s : Statement) : st.Grown [s] (st.push s) := by
  cases s <;> constructor <;> first | rfl | exact (List.append_nil _).symm

theorem Grown.trans {st st' st'' : Statements} {ss ts : List Statement} (h : st.Grown ss st')
    (h' : st'.Grown ts st'') : st.Grown (ss ++ ts) st'' := by
  constructor <;> rw [List.filterMap_append]
  · rw [h'.tables, h.tables, List.append_assoc]
  · rw [h'.selects, h.selects, List.append_assoc]
  · rw [h'.filters, h.filters, List.append_assoc]
  · rw [h'.havings, h.havings, List.append_assoc]
  · rw [h'.joins, h.joins, List.append_assoc]
  · rw [h'.sortKeys, h.sortKeys, List.append_assoc]
  · rw [h'.groupings, h.groupings, List.append_assoc]
  · rw [h'.distinct, h.distinct, lastSet_append]
  · rw [h'.limit, h.limit, lastSet_append]
  · rw [h'.offset, h.offset, lastSet_append]
  · rw [h'.onDuplicate, h.onDuplicate, lastSet_append]

theorem grown_pushAll (st : Statements) (ss : List Statement) : st.Grown ss (st.pushAll ss) := by
  induction ss generalizing st with
  | nil => constructor <;> first | rfl | exact (List.append_nil _).symm
  | cons s ss ih => exact (st.grown_push s).trans (ih (st.push s))

end Statements

/-! ## Parts -/

/-- The parts of a statement set that can be written on their own: each list,
each setting, and limit and offset together. -/
inductive Part where
  | tables
  | selects
  | distinct
  | joins
  | filters
  | havings
  | groupings
  | sortKeys
  | paging
  | onDuplicate
  deriving DecidableEq

/-- The part a statement is for. -/
def Statement.part : Statement → Part
  | .table _ => .tables
  | .select _ => .selects
  | .filter _ => .filters
  | .having _ => .havings
  | .join _ => .joins
  | .orderBy _ => .sortKeys
  | .groupBy _ => .groupings
  | .distinct _ => .distinct
  | .limit _ | .offset _ | .page .. => .paging
  | .onDuplicate _ => .onDuplicate

/-- The part the conditions of a clause are for. -/
def Clause.part : Clause → Part
  | .filter => .filters
  | .having => .havings
  | .joinOn => .joins

@[simp] theorem Clause.part_ne_paging (k : Clause) : k.part ≠ .paging := by cases k <;> nofun

/-- The clause of a condition that is asked for in `k`: its own, if it was handed
in ready-made. -/
def Condition.clause (k : Clause) : Condition → Clause
  | .given (.ok c) => c.clause
  | _ => k

/-- The part a call writes. -/
def Call.part : Call → Part
  | .tables _ => .tables
  | .select _ => .selects
  | .distinct => .distinct
  | .join .. => .joins
  | .filter c => (c.clause .filter).part
  | .having c => (c.clause .having).part
  | .groupBy _ => .groupings
  | .orderBy .. => .sortKeys
  | .limit _ | .offset _ | .paginate .. => .paging
  | .onDuplicate _ => .onDuplicate

theorem Condition.criterion?_clause {k : Clause} {c : Condition} {r : Option Criterion}
    (h : c.criterion? k = .ok r) : ∀ d ∈ r, d.clause = c.clause k := by
  cases c with
  | test j field op operand =>
    simp only [criterion?, Except.bind_ok_iff, Except.pure_ok_iff] at h
    obtain ⟨d, hd, rfl⟩ := h
    intro e he
    obtain rfl := Option.some.inj he
    exact Criterion.clause_make hd
  | literal j f => cases h; rintro d ⟨⟩; rfl
  | group j inner =>
    simp only [criterion?, Except.bind_ok_iff, Except.pure_ok_iff] at h
    obtain ⟨cs, -, rfl⟩ := h
    rintro d ⟨⟩
    rfl
  | given criterion =>
    simp only [criterion?, Except.bind_ok_iff, Except.pure_ok_iff] at h
    obtain ⟨d, rfl, rfl⟩ := h
    rintro e ⟨⟩
    rfl
  | absent => cases h; simp

theorem Call.ofCondition_spec {k : Clause} {c : Condition} :
    (∃ e, c.criterion? k = .error e ∧ ofCondition k c = [.error e]) ∨
    ∃ r, c.criterion? k = .ok r ∧ ofCondition k c = r.toList.map Criterion.statement := by
  unfold ofCondition
  split
  next h => exact .inr ⟨none, h, rfl⟩
  next d h => exact .inr ⟨some d, h, rfl⟩
  next e h => exact .inl ⟨e, h, rfl⟩

theorem part_of_map {α : Type} {f : α → Statement} {part : Part} {x : Except Error α} {s : Statement}
    (h : f <$> x = .ok s) (hf : ∀ a, (f a).part = part) : s.part = part := by
  cases x with
  | error e => cases h
  | ok a =>
    obtain rfl := Except.ok.inj h
    exact hf a

/-- A condition is a statement of the clause it is meant for. -/
theorem Criterion.statement_cases {c : Criterion} {s : Statement} (h : c.statement = .ok s) :
    (c.clause = .filter ∧ s = .filter c) ∨ (c.clause = .having ∧ s = .having c) := by
  unfold statement at h
  split at h
  next hk => exact .inl ⟨hk, (Except.ok.inj h).symm⟩
  next hk => exact .inr ⟨hk, (Except.ok.inj h).symm⟩
  next => cases h

theorem Call.mem_ofCondition {k : Clause} {c : Condition} {s : Statement}
    (h : .ok s ∈ ofCondition k c) : ∃ d : Criterion, d.clause = c.clause k ∧ d.statement = .ok s := by
  rcases ofCondition_spec (k := k) (c := c) with ⟨e, -, hs⟩ | ⟨r, hr, hs⟩ <;> rw [hs] at h
  · simp at h
  · obtain ⟨d, hd, hds⟩ := List.mem_map.mp h
    exact ⟨d, Condition.criterion?_clause hr d (by simpa using hd), hds⟩

theorem Call.part_of_mem_ofCondition {k : Clause} {c : Condition} {s : Statement}
    (h : .ok s ∈ ofCondition k c) : s.part = (c.clause k).part := by
  obtain ⟨d, hd, hs⟩ := mem_ofCondition h
  rw [← hd]
  rcases Criterion.statement_cases hs with ⟨hk, rfl⟩ | ⟨hk, rfl⟩ <;> rw [hk] <;> rfl

/-- A call writes no part but its own. -/
theorem Call.part_of_mem_statements {call : Call} {s : Statement} (h : .ok s ∈ call.statements) :
    s.part = call.part := by
  cases call with
  | tables refs | select columns =>
    obtain ⟨ref, -, hr⟩ := List.mem_map.mp h
    exact part_of_map hr fun _ => rfl
  | join | groupBy | orderBy => exact part_of_map (List.mem_singleton.mp h).symm fun _ => rfl
  | distinct | limit | offset =>
    obtain rfl := Except.ok.inj (List.mem_singleton.mp h)
    rfl
  | filter c | having c => exact part_of_mem_ofCondition h
  | paginate page size =>
    have hpage := List.mem_singleton.mp h
    grind [Statement.pageOf, Statement.part, Call.part]
  | onDuplicate row =>
    obtain ⟨_, -, hrow⟩ := Except.bind_ok_iff.mp (List.mem_singleton.mp h).symm
    obtain rfl := Except.pure_ok_iff.mp hrow
    rfl

/-! ## Builders -/

namespace Builder

theorem foldl_record_eq (xs : List (Except Error Statement)) (b : Builder) :
    xs.foldl record b = { b with
      statements := b.statements.pushAll (accepted xs)
      error := b.error.or (refusals xs).head? } := by
  induction xs generalizing b with
  | nil => cases b with | mk config st error => cases error <;> rfl
  | cons x xs ih =>
    rw [List.foldl_cons, ih]
    cases x with
    | ok s => rfl
    | error e => cases herror : b.error <;> simp [record, herror]

/-- A call pushes what it is accepted for, and its first error is kept unless
there is one already. -/
theorem apply_eq (b : Builder) (call : Call) :
    b.apply call = { b with
      statements := b.statements.pushAll (accepted call.statements)
      error := b.error.or (refusals call.statements).head? } :=
  foldl_record_eq call.statements b

/-- A run of calls is one call that asks for all their statements. -/
theorem applyAll_eq_record (b : Builder) (calls : List Call) :
    b.applyAll calls = { b with
      statements := b.statements.pushAll (accepted (calls.flatMap Call.statements))
      error := b.error.or (refusals (calls.flatMap Call.statements)).head? } := by
  rw [← foldl_record_eq, List.foldl_flatMap]
  rfl

theorem config_applyAll (b : Builder) (calls : List Call) : (b.applyAll calls).config = b.config := by
  rw [applyAll_eq_record]

end Builder

end BoundSql
