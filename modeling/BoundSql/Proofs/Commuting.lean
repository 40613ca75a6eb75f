/-
Calls for different parts of a query commute.

A call writes one part of the statements (`Call.part_of_mem_statements`), and
statements for different parts can be pushed in either order. So two runs that
make the same calls for each part, in the same order within the part, come to
the same statements however the parts are mixed: the order of the SQL, and with
it that of the bindings, is the order of the clauses and not of the calls.
-/
import BoundSql.Proofs.Recording
import BoundSql.Run.Action

namespace BoundSql

/-! ## Runs of steps that commute -/

section Steps

variable {σ α κ : Type} {step : σ → α → σ} {key : α → κ}

/-- A step that commutes with every step of a run can be taken after it. -/
theorem foldl_step {a : α} {run : List α}
    (h : ∀ b ∈ run, ∀ s, step (step s a) b = step (step s b) a) (s : σ) :
    run.foldl step (step s a) = step (run.foldl step s) a := by
  induction run generalizing s with
  | nil => rfl
  | cons b run ih =>
    rw [List.foldl_cons, List.foldl_cons, h b List.mem_cons_self s]
    exact ih (fun c hc => h c (List.mem_cons_of_mem b hc)) (step s b)

variable [DecidableEq κ]

/-- Where steps of different keys commute, runs with the same steps of each key,
in the same order, end in the same state. -/
theorem foldl_eq_of_filter_eq
    (hcomm : ∀ s a b, key a ≠ key b → step (step s a) b = step (step s b) a) {run run' : List α}
    (h : ∀ k, (run.filter fun a => key a = k) = run'.filter fun a => key a = k) (s : σ) :
    run.foldl step s = run'.foldl step s := by
  induction run generalizing run' s with
  | nil =>
    have hnil : run' = [] := by
      refine List.eq_nil_iff_forall_not_mem.mpr fun a ha => ?_
      have hmem : a ∈ run'.filter fun b => key b = key a := by simp [ha]
      rw [← h] at hmem
      cases hmem
    rw [hnil]
  | cons a run ih =>
    -- the first step stands in the other run behind steps of other keys only
    obtain ⟨before, after, rfl, hbefore, -, hafter⟩ := List.filter_eq_cons_iff.mp
      ((h (key a)).symm.trans (List.filter_cons_of_pos (by simp)))
    have hkeys : ∀ b ∈ before, key b ≠ key a := fun b hb => by simpa using hbefore b hb
    have hrest : ∀ k, (run.filter fun b => key b = k) =
        (before ++ after).filter fun b => key b = k := by
      intro k
      have hk := h k
      by_cases hak : key a = k
      · subst hak
        have hnone : (before.filter fun b => key b = key a) = [] := by simpa using hkeys
        rw [List.filter_append, hnone, List.nil_append, hafter]
      · simpa [hak] using hk
    rw [List.foldl_cons, ih hrest, List.foldl_append, List.foldl_append, List.foldl_cons,
      foldl_step fun b hb s => hcomm s a b (hkeys b hb).symm]

end Steps

/-! ## Statements of different parts -/

namespace Statements

theorem push_comm {s t : Statement} (h : s.part ≠ t.part) (st : Statements) :
    (st.push s).push t = (st.push t).push s := by
  cases s <;> cases t <;> first | rfl | exact absurd rfl h

theorem pushAll_comm {ss ts : List Statement} (h : ∀ s ∈ ss, ∀ t ∈ ts, s.part ≠ t.part)
    (st : Statements) : (st.pushAll ss).pushAll ts = (st.pushAll ts).pushAll ss := by
  induction ss generalizing st with
  | nil => rfl
  | cons s ss ih =>
    have hs : ∀ t ∈ ts, ∀ st, push (push st s) t = push (push st t) s :=
      fun t ht => push_comm (h s List.mem_cons_self t ht)
    calc ((st.push s).pushAll ss).pushAll ts
        = ((st.push s).pushAll ts).pushAll ss :=
          ih (fun s' hs' => h s' (List.mem_cons_of_mem s hs')) (st.push s)
      _ = ((st.pushAll ts).push s).pushAll ss := congrArg (pushAll · ss) (foldl_step hs st)

end Statements

/-! ## Calls -/

attribute [ext] Builder

theorem mem_accepted {α : Type} {a : α} {xs : List (Except Error α)} :
    a ∈ accepted xs ↔ .ok a ∈ xs := by
  induction xs with
  | nil => simp
  | cons x xs ih => cases x <;> simp [ih]

theorem Call.accepted_comm {call call' : Call} (h : call.part ≠ call'.part) (st : Statements) :
    (st.pushAll (accepted call.statements)).pushAll (accepted call'.statements) =
      (st.pushAll (accepted call'.statements)).pushAll (accepted call.statements) := by
  refine Statements.pushAll_comm (fun s hs t ht => ?_) st
  rwa [part_of_mem_statements (mem_accepted.mp hs), part_of_mem_statements (mem_accepted.mp ht)]

namespace Builder

variable {calls calls' : List Call}

theorem statements_applyAll (b : Builder) (calls : List Call) :
    (b.applyAll calls).statements =
      calls.foldl (fun st call => st.pushAll (accepted call.statements)) b.statements := by
  induction calls generalizing b with
  | nil => rfl
  | cons call calls ih =>
    change ((b.apply call).applyAll calls).statements = _
    rw [ih, apply_eq]
    rfl

/-- Runs with the same calls for each part collect the same statements, refused
calls or not. -/
theorem statements_eq_of_parts
    (h : ∀ part, (calls.filter fun call => call.part = part) =
      calls'.filter fun call => call.part = part) (b : Builder) :
    (b.applyAll calls).statements = (b.applyAll calls').statements := by
  rw [statements_applyAll, statements_applyAll]
  exact foldl_eq_of_filter_eq (fun st _ _ hparts => Call.accepted_comm hparts st) h _

/-- And one of them is refused nothing if the other is not. -/
theorem error_eq_none_of_parts
    (h : ∀ part, (calls.filter fun call => call.part = part) =
      calls'.filter fun call => call.part = part) {b : Builder}
    (hnone : (b.applyAll calls).error = none) : (b.applyAll calls').error = none := by
  simp only [applyAll_eq_record, Option.or_eq_none_iff, List.head?_eq_none_iff, refusals_eq_nil,
    List.mem_flatMap, not_exists, not_and] at hnone ⊢
  refine ⟨hnone.1, fun e call hcall => hnone.2 e call ?_⟩
  have hmem : call ∈ calls'.filter fun c => c.part = call.part := by simp [hcall]
  rw [← h] at hmem
  exact (List.mem_filter.mp hmem).1

theorem applyAll_eq_of_parts
    (h : ∀ part, (calls.filter fun call => call.part = part) =
      calls'.filter fun call => call.part = part) {b : Builder}
    (hnone : (b.applyAll calls).error = none) : b.applyAll calls = b.applyAll calls' := by
  apply Builder.ext
  · rw [config_applyAll, config_applyAll]
  · exact statements_eq_of_parts h b
  · rw [hnone, error_eq_none_of_parts h hnone]

/-- **Calls for different parts commute.** Take two runs of calls that make, for
each part of a query, the same calls in the same order, mixed in different ways.
If one of them is refused nothing, neither is the other, and both give the same
query, or the same error, to whatever is asked for. -/
theorem calls_commute (b : Builder)
    (h : ∀ part, (calls.filter fun call => call.part = part) =
      calls'.filter fun call => call.part = part)
    (hnone : (b.applyAll calls).error = none) :
    (b.applyAll calls').error = none ∧
    (∀ r, (b.applyAll calls).query r = (b.applyAll calls').query r) ∧
    (∀ rows mode, (b.applyAll calls).insertQueries rows mode =
      (b.applyAll calls').insertQueries rows mode) ∧
    (∀ asName, (b.applyAll calls).subquery asName = (b.applyAll calls').subquery asName) ∧
    ∀ x action, Run.action x (b.applyAll calls) action = Run.action x (b.applyAll calls') action := by
  have heq := applyAll_eq_of_parts h hnone
  rw [← heq]
  exact ⟨hnone, fun _ => rfl, fun _ _ => rfl, fun _ => rfl, fun _ _ => rfl⟩

/-- Calls for seven parts, each part in one piece. A condition handed in
ready-made is for the clause it was made for. -/
def callsByPart : List Call :=
  [.tables [(.column (.name "users"), some "u")],
    .join .left (.column (.name "orders")) [.on .and (.column (.name "u.id")) "=" (.value (.plain (.int 1)))],
    .filter (.compare .and (.column (.name "u.age")) ">" (.plain (.int 2))),
    .filter (.group .or [.compare .and (.column (.name "u.kind")) "=" (.plain (.string "a"))]),
    .having (.compare .and (.column (.name "n")) "<" (.plain (.int 3))),
    .filter (.given (.ok (.raw (.ofText "n > 0") .and .having))),
    .groupBy (.column (.name "u.kind")), .limit 5, .paginate 2 10]

/-- The same calls, HAVING before the table and the join behind everything. -/
def callsMixed : List Call :=
  [.having (.compare .and (.column (.name "n")) "<" (.plain (.int 3))), .limit 5,
    .filter (.compare .and (.column (.name "u.age")) ">" (.plain (.int 2))),
    .groupBy (.column (.name "u.kind")), .paginate 2 10,
    .filter (.given (.ok (.raw (.ofText "n > 0") .and .having))),
    .tables [(.column (.name "users"), some "u")],
    .filter (.group .or [.compare .and (.column (.name "u.kind")) "=" (.plain (.string "a"))]),
    .join .left (.column (.name "orders")) [.on .and (.column (.name "u.id")) "=" (.value (.plain (.int 1)))]]

theorem calls_commute_sample :
    (∀ part, (callsByPart.filter fun call => call.part = part) =
      callsMixed.filter fun call => call.part = part) ∧
    (applyAll {} callsByPart).error = none ∧ (applyAll {} callsMixed).error = none ∧
    ∃ q, (applyAll {} callsMixed).query .select = .ok q ∧
      (applyAll {} callsByPart).query .select = .ok q ∧
      q.bindings.map Binding.literal = ["1".toList, "2".toList, "'a'".toList, "3".toList] := by
  have hparts : ∀ part, (callsByPart.filter fun call => call.part = part) =
      callsMixed.filter fun call => call.part = part := by
    intro part
    cases part <;> rfl
  obtain ⟨hnone, hquery, -⟩ := calls_commute {} hparts rfl
  exact ⟨hparts, rfl, hnone, _, rfl, hquery .select, rfl⟩

end Builder

end BoundSql
