/-
What a condition can be made as, and what a test against a list is written as,
case by case.
-/
import BoundSql.Criterion.Render
import BoundSql.Proofs.ExceptFacts

namespace BoundSql

open Fragment (ofText)

/-- The four things a test against a list can be. -/
theorem listPredicate_cases (column op : Text) (vs : List Value) :
    (∃ low high, vs = [low, high] ∧ listPredicate column op vs =
      .ok (ofText (column ++ " " ++ op ++ " ") ++ low.fragment ++ ofText " AND " ++ high.fragment)) ∨
    (vs = [] ∧ listPredicate column op vs = .error (.criterion (.twoValuesNeeded op column))) ∨
    (vs = [] ∧ listPredicate column op vs = .ok (ofText (if hasNot op then "1=1" else "1=0"))) ∨
    listPredicate column op vs = .ok (ofText (column ++ " " ++ op ++ " (") ++
      Fragment.joined ", " (vs.map Value.fragment) ++ ofText ")") := by
  unfold listPredicate
  split
  next low high _ => exact .inl ⟨low, high, rfl, rfl⟩
  next => exact .inr (.inl ⟨rfl, rfl⟩)
  next => exact .inr (.inr (.inl ⟨rfl, rfl⟩))
  next => exact .inr (.inr (.inr rfl))

/-- A condition that is made is a group, raw SQL, or a test with an operator. -/
theorem Criterion.make_cases {field : Field} {op : Text} {operand : Option Operand} {j : Connective}
    {k : Clause} {c : Criterion} (h : make field op operand j k = .ok c) :
    (∃ inner, field = .group inner ∧ c = .group j k (Text.trim op) inner) ∨
    (∃ f, c = .leaf j k (.literal f)) ∨
    ∃ column t, Text.trim op ≠ [] ∧ testOf column (Text.trim op) operand = .ok t ∧ c = .leaf j k t := by
  cases field with
  | group inner => cases operand with
    | none => cases h; exact .inl ⟨inner, rfl, rfl⟩
    | some => cases h
  | column column =>
    by_cases hop : Text.trim op = []
    · -- without an operator, only raw SQL is a condition
      rcases operand with _ | v | vs | other | inner <;> cases column <;> simp [make, hop] at h
      exact .inr (.inl ⟨_, h.symm⟩)
    · have hmake : make (.column column) op operand j k =
            (do return leaf j k (← testOf column (Text.trim op) operand)) ∨
          make (.column column) op operand j k = .error (.criterion .groupAsOperand) := by
        rcases operand with _ | v | vs | other | inner <;> simp [make, hop]
      rcases hmake with hmake | hmake <;> rw [hmake] at h
      · obtain ⟨t, ht, hc⟩ := Except.bind_ok_iff.mp h
        exact .inr (.inr ⟨column, t, hop, ht, (Except.pure_ok_iff.mp hc).symm⟩)
      · cases h

theorem Criterion.clause_make {field : Field} {op : Text} {operand : Option Operand} {j : Connective}
    {k : Clause} {c : Criterion} (h : make field op operand j k = .ok c) : c.clause = k := by
  rcases make_cases h with ⟨inner, -, rfl⟩ | ⟨f, rfl⟩ | ⟨column, t, -, -, rfl⟩ <;> rfl

theorem Criterion.operator_testOf {c : Column} {op : Text} {operand : Option Operand} {t : Test}
    (h : testOf c op operand = .ok t) : t.operator = op := by
  unfold testOf at h
  split at h <;> cases h <;> rfl

end BoundSql
