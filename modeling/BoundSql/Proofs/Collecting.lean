/-
Groups of conditions, filled call by call.

A group in parentheses is filled as a builder is: it takes each condition that
can be made and keeps the error of the first that cannot. What it takes it keeps
in one list, where a builder has one for each clause. Only when it is done
does it come to something, its conditions or that error, which whatever stands
around it takes or keeps in turn. To build a group at once and to stop at the
first error, as `Condition.criteria` does, comes to the same; and the error is
that of the first single condition refused, depth first.
-/
import BoundSql.Proofs.Filters
import BoundSql.Proofs.Recording

namespace BoundSql

/-- A group being filled: the clause its conditions are meant for, those it has
taken, and the first error. -/
structure Group where
  clause : Clause
  criteria : List Criterion := []
  error : Option Error := none

namespace Group

/-- Takes a condition, or keeps the error if it is the first. -/
def push (g : Group) : Except Error Criterion → Group
  | .ok c => { g with criteria := g.criteria ++ [c] }
  | .error e => { g with error := g.error <|> some e }

/-- What a group comes to. -/
def result (g : Group) : Except Error (List Criterion) :=
  match g.error with
  | none => .ok g.criteria
  | some e => .error e

mutual

/-- One more condition asked for in a group. -/
def add (g : Group) : Condition → Group
  | .test j field op operand => g.push (Criterion.make field op operand j g.clause)
  | .literal j f => g.push (.ok (.raw f j g.clause))
  | .group j inner =>
    g.push ((Criterion.nested · j g.clause) <$> (addAll { clause := g.clause } inner).result)
  | .given criterion => g.push criterion
  | .absent => g

def addAll (g : Group) : List Condition → Group
  | [] => g
  | c :: rest => addAll (g.add c) rest

end

variable {g : Group}

theorem clause_push (x : Except Error Criterion) : (g.push x).clause = g.clause := by
  cases x <;> rfl

@[simp] theorem clause_add (c : Condition) : (g.add c).clause = g.clause := by
  cases c <;> simp [add, clause_push]

/-! ## What a group comes to -/

theorem result_push (x : Except Error Criterion) :
    (g.push x).result = do let before ← g.result; return before ++ [← x] := by
  cases x with
  | ok c => cases h : g.error <;> simp [push, result, h, bind, Except.bind, pure, Except.pure]
  | error e => cases h : g.error <;> simp [push, result, h, bind, Except.bind]

mutual

/-- A condition asked for in a group is built, and taken or refused. -/
theorem add_eq {g : Group} : ∀ c : Condition,
    g.add c = match c.criterion? g.clause with
      | .ok none => g
      | .ok (some d) => g.push (.ok d)
      | .error e => g.push (.error e)
  | .test j field op operand => by
    rw [add, Condition.criterion?]
    cases Criterion.make field op operand j g.clause <;> rfl
  | .literal j f => rfl
  | .group j inner => by
    have hinner := result_addAll (g := { clause := g.clause }) inner
    rw [add, hinner, Condition.criterion?]
    cases Condition.criteria g.clause inner <;> rfl
  | .given criterion => by
    rw [add, Condition.criterion?]
    cases criterion <;> rfl
  | .absent => rfl

/-- What a group comes to is what it had and what is asked for is built into. -/
theorem result_addAll {g : Group} : ∀ cs : List Condition,
    (g.addAll cs).result = do
      let before ← g.result
      return before ++ (← Condition.criteria g.clause cs)
  | [] => by
    rw [addAll, Condition.criteria]
    cases g.result <;> simp [bind, Except.bind, pure, Except.pure]
  | c :: rest => by
    rw [addAll, result_addAll rest, clause_add, add_eq c, Condition.criteria]
    cases c.criterion? g.clause with
    | error e => rw [result_push]; cases g.result <;> rfl
    | ok r => cases r with
      | none => cases g.result <;> cases Condition.criteria g.clause rest <;> rfl
      | some d =>
        rw [result_push]
        cases g.result <;> cases Condition.criteria g.clause rest <;>
          simp [bind, Except.bind, pure, Except.pure]

end

/-- Building conditions at once comes to what a group filled with them does. -/
theorem result_addAll_nil (k : Clause) (cs : List Condition) :
    (addAll { clause := k } cs).result = Condition.criteria k cs := by
  rw [result_addAll]
  cases Condition.criteria k cs <;> simp [result, bind, Except.bind, pure, Except.pure]

/-! ## What a group takes, and what it refuses first -/

theorem criteria_push (x : Except Error Criterion) :
    (g.push x).criteria = g.criteria ++ accepted [x] := by
  cases x <;> simp [push]

theorem error_push (x : Except Error Criterion) :
    (g.push x).error = g.error.or (refusals [x]).head? := by
  cases x <;> simp [push]

/-- A group takes of a condition what an empty one does, whatever it had. -/
theorem criteria_add (c : Condition) :
    (g.add c).criteria = g.criteria ++ (add { clause := g.clause } c).criteria := by
  cases c with
  | absent => simp [add]
  | test | literal | group | given => simp [add, criteria_push]

theorem criteria_addAll (cs : List Condition) :
    (g.addAll cs).criteria =
      g.criteria ++ cs.flatMap fun c => (add { clause := g.clause } c).criteria := by
  induction cs generalizing g with
  | nil => simp [addAll]
  | cons c rest ih => rw [addAll, ih, clause_add, criteria_add, List.append_assoc, List.flatMap_cons]

theorem refusals_result (f : List Criterion → Criterion) :
    (refusals [f <$> g.result]).head? = g.error := by
  unfold result
  cases g.error <;> rfl

mutual

theorem error_add {g : Group} : ∀ c : Condition,
    (g.add c).error = g.error.or (refusals (c.asked g.clause)).head?
  | .test j field op operand => by rw [add, error_push, Condition.asked]
  | .literal j f => by rw [add, error_push, Condition.asked]
  | .group j inner => by
    rw [add, error_push, refusals_result, error_addAll inner, Condition.asked, Option.none_or]
  | .given criterion => by rw [add, error_push, Condition.asked]
  | .absent => by simp [add, Condition.asked]

/-- The error a group keeps is that of the first single condition refused, in
it or in the groups inside it. -/
theorem error_addAll {g : Group} : ∀ cs : List Condition,
    (g.addAll cs).error = g.error.or (refusals (Condition.allAsked g.clause cs)).head?
  | [] => by simp [addAll, Condition.allAsked]
  | c :: rest => by
    rw [addAll, error_addAll rest, error_add c, clause_add, Condition.allAsked, refusals_append,
      List.head?_append, Option.or_assoc]

end

end Group

/-- The statements a builder makes of what a group has taken, each for its own
clause. A condition for ON is none. -/
def Group.statements (g : Group) : List (Except Error Statement) := g.criteria.map Criterion.statement

theorem Group.clause_of_mem_add {k : Clause} {c : Condition} {d : Criterion}
    (h : d ∈ (add { clause := k } c).criteria) : d.clause = c.clause k := by
  rw [add_eq] at h
  split at h
  · cases h
  next r hr =>
    obtain rfl := List.mem_singleton.mp h
    exact Condition.criterion?_clause hr d rfl
  · cases h

/-- A call takes of a condition what an empty group takes of it, and refuses what
is refused there, or a condition for ON. -/
theorem Call.ofCondition_eq (k : Clause) (c : Condition) :
    accepted (ofCondition k c) = accepted (Group.add { clause := k } c).statements ∧
      refusals (ofCondition k c) = ((Group.add { clause := k } c).error.or
        (refusals (Group.add { clause := k } c).statements).head?).toList := by
  rw [Group.add_eq, ofCondition]
  cases c.criterion? k with
  | error e => exact ⟨rfl, rfl⟩
  | ok r => cases r with
    | none => exact ⟨rfl, rfl⟩
    | some d =>
      have hstatements : (Group.push { clause := k } (.ok d)).statements = [d.statement] := rfl
      dsimp only
      rw [hstatements]
      cases d.statement <;> exact ⟨rfl, rfl⟩

end BoundSql
