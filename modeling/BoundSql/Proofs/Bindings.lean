/-
The bindings of a query are those of its operands, in the order of the text.

A group whose text is empty is left out of a query, and so is a clause, and
with them whatever they bind. Nothing is lost there, since a fragment that
binds something has a placeholder to see in it (`Fragment.Visible`): empty text
binds nothing.
-/
import BoundSql.Proofs.ExceptFacts
import BoundSql.Proofs.Operands
import BoundSql.Proofs.CriterionFacts
import BoundSql.Proofs.TrimFacts

namespace BoundSql

open Fragment (ofText)

/-! ## Fragments that bind something can be seen -/

/-- A fragment that binds something has a character that is no blank. -/
def Fragment.Visible (f : Fragment) : Prop := f.bindings ≠ [] → Text.blank f.sql = false

theorem Fragment.Visible.ofText (t : Text) : (ofText t).Visible := fun h => absurd rfl h

theorem Fragment.Visible.append {f g : Fragment} (hf : f.Visible) (hg : g.Visible) :
    (f ++ g).Visible := by
  intro h
  rw [sql_append, Text.blank_append, Bool.and_eq_false_iff]
  by_cases hb : f.bindings = []
  · exact .inr (hg (by simpa [hb] using h))
  · exact .inl (hf hb)

theorem Fragment.Visible.joined (separator : Text) {fs : List Fragment}
    (h : ∀ f ∈ fs, f.Visible) : (Fragment.joined separator fs).Visible := by
  induction fs using Fragment.joined.induct with
  | case1 => exact .ofText []
  | case2 f => exact h f (by simp)
  | case3 f g rest ih =>
    have hrest := ih fun x hx => h x (by simp [hx])
    exact ((h f (by simp)).append (.ofText _)).append hrest

theorem Fragment.Visible.bindings_eq_nil {f : Fragment} (h : f.Visible)
    (hf : Text.blank f.sql = true) : f.bindings = [] := by
  cases hb : f.bindings with
  | nil => rfl
  | cons b bs => rw [h (by simp [hb])] at hf; cases hf

/-! ## Values -/

theorem Value.bindings_fragment (v : Value) : v.fragment.bindings = v.bindings := by
  rcases v.fragment_cases with ⟨f, rfl, h⟩ | ⟨b, hb, h⟩ | ⟨-, hb, h⟩
  · rw [h]; rfl
  · rw [h, Value.bindings, hb]
    cases hn : b.isSqlNull <;> simp [hn, Fragment.ofBinding]
  · rw [h, Value.bindings, hb]; rfl

theorem Value.visible_fragment (v : Value) : v.fragment.Visible := by
  rcases v.fragment_cases with ⟨f, -, h⟩ | ⟨b, -, h⟩ | ⟨-, -, h⟩ <;> rw [h]
  · exact .ofText _
  · split
    · exact .ofText _
    · intro _
      rfl
  · exact .ofText _

/-! ## Tests -/

theorem listPredicate_bindings {column op : Text} {vs : List Value} {f : Fragment}
    (h : listPredicate column op vs = .ok f) : f.bindings = vs.flatMap Value.bindings ∧ f.Visible := by
  rcases listPredicate_cases column op vs with
    ⟨low, high, rfl, hf⟩ | ⟨rfl, hf⟩ | ⟨rfl, hf⟩ | hf <;> rw [hf] at h <;> cases h
  · refine ⟨by simp [Value.bindings_fragment], ?_⟩
    exact (((Fragment.Visible.ofText _).append low.visible_fragment).append (.ofText _)).append
      high.visible_fragment
  · exact ⟨rfl, .ofText _⟩
  · constructor
    · simp [Fragment.bindings_joined, List.flatMap_map, Value.bindings_fragment]
    · refine ((Fragment.Visible.ofText _).append (.joined _ fun f hf => ?_)).append (.ofText _)
      obtain ⟨v, -, rfl⟩ := List.mem_map.mp hf
      exact v.visible_fragment

theorem Test.bindings_fragment {p : TablePrefix} {t : Test} {f : Fragment}
    (h : t.fragment p = .ok f) : f.bindings = t.bindings ∧ f.Visible := by
  cases t with
  | literal | unary | columns =>
    cases h
    exact ⟨rfl, .ofText _⟩
  | compare c op v =>
    cases h
    exact ⟨by simp [Test.bindings, Value.bindings_fragment],
      (Fragment.Visible.ofText _).append v.visible_fragment⟩
  | among c op vs => exact listPredicate_bindings h

/-! ## Lists and groups -/

theorem Predicate.bindings_first (q : Predicate) : q.first.bindings = q.fragment.bindings := by
  unfold Predicate.first
  split <;> simp

theorem Predicate.visible_first {q : Predicate} (h : q.fragment.Visible) : q.first.Visible := by
  unfold Predicate.first
  split
  · exact (Fragment.Visible.ofText _).append h
  · exact h

/-- What predicates bind, and that they bind nothing when they are written as
empty text. -/
theorem conjoined_bindings {ps : List Predicate} (h : ∀ q ∈ ps, q.fragment.Visible) :
    (conjoined ps).bindings = ps.flatMap (·.fragment.bindings) ∧
      ((conjoined ps).sql = [] → (conjoined ps).bindings = []) := by
  cases ps with
  | nil => exact ⟨rfl, fun _ => rfl⟩
  | cons q rest =>
    have hbindings : (Fragment.joined " " (q.first :: rest.map Predicate.next)).bindings =
        (q :: rest).flatMap (·.fragment.bindings) := by
      simp [Fragment.bindings_joined, List.flatMap_map, Predicate.bindings_first, Predicate.next]
    have hvisible : (Fragment.joined " " (q.first :: rest.map Predicate.next)).Visible := by
      refine .joined _ fun f hf => ?_
      rcases List.mem_cons.mp hf with rfl | hf
      · exact Predicate.visible_first (h q (by simp))
      · obtain ⟨r, hr, rfl⟩ := List.mem_map.mp hf
        exact (Fragment.Visible.ofText _).append (h r (by simp [hr]))
    refine ⟨hbindings, fun hs => ?_⟩
    exact hvisible.bindings_eq_nil (Text.trim_eq_nil.mp hs)

theorem groupPredicate_bindings {f : Fragment} (h : f.sql = [] → f.bindings = []) :
    (groupPredicate f).toList.flatMap Fragment.bindings = f.bindings ∧
      ∀ g ∈ groupPredicate f, g.Visible := by
  unfold groupPredicate
  split
  next hf => exact ⟨(h (List.isEmpty_iff.mp hf)).symm, by simp⟩
  next =>
    refine ⟨by simp, fun g hg _ => ?_⟩
    obtain rfl := Option.some.inj (Option.mem_def.mp hg)
    simp only [Fragment.sql_append, Text.blank_append, Bool.and_eq_false_iff]
    exact .inl (.inl rfl)

mutual

theorem Criterion.predicate?_bindings {p : TablePrefix} : ∀ {c : Criterion} {r : Option Predicate},
    c.predicate? p = .ok r →
      (r.toList.flatMap (·.fragment.bindings)) = c.tests.flatMap Test.bindings ∧
        ∀ q ∈ r, q.fragment.Visible
  | .leaf j k t, r, h => by
    simp only [Criterion.predicate?, Except.bind_ok_iff, Except.pure_ok_iff] at h
    obtain ⟨f, hf, rfl⟩ := h
    obtain ⟨hb, hv⟩ := Test.bindings_fragment hf
    exact ⟨by simp [Criterion.tests, hb], by simpa using hv⟩
  | .group j k op inner, r, h => by
    simp only [Criterion.predicate?, Except.bind_ok_iff, Except.pure_ok_iff] at h
    obtain ⟨ps, hps, rfl⟩ := h
    obtain ⟨hb, hv⟩ := Criterion.predicates_bindings hps
    obtain ⟨hc, hempty⟩ := conjoined_bindings hv
    obtain ⟨hg, hgv⟩ := groupPredicate_bindings hempty
    constructor
    · rw [Criterion.tests, ← Criterion.bindings, ← hb, ← hc, ← hg]
      cases groupPredicate (conjoined ps) <;> simp
    · intro q hq
      obtain ⟨g, hg', rfl⟩ := Option.map_eq_some_iff.mp hq
      exact hgv g hg'

theorem Criterion.predicates_bindings {p : TablePrefix} : ∀ {cs : List Criterion} {ps : List Predicate},
    Criterion.predicates p cs = .ok ps →
      ps.flatMap (·.fragment.bindings) = Criterion.bindings cs ∧ ∀ q ∈ ps, q.fragment.Visible
  | [], ps, h => by
    cases h
    exact ⟨rfl, by simp⟩
  | c :: rest, ps, h => by
    simp only [Criterion.predicates, Except.bind_ok_iff, Except.pure_ok_iff] at h
    obtain ⟨r, hr, qs, hqs, rfl⟩ := h
    obtain ⟨hb, hv⟩ := Criterion.predicate?_bindings hr
    obtain ⟨hbs, hvs⟩ := Criterion.predicates_bindings hqs
    constructor
    · simp [Criterion.bindings, Criterion.allTests, hb, hbs]
    · intro q hq
      rcases List.mem_append.mp hq with hq | hq
      · exact hv q (by simpa using hq)
      · exact hvs q hq

end

/-- Conditions bind what their operands bind, and empty text binds nothing. -/
theorem Criterion.render_bindings {p : TablePrefix} {cs : List Criterion} {f : Fragment}
    (h : Criterion.render p cs = .ok f) :
    f.bindings = Criterion.bindings cs ∧ (f.sql = [] → f.bindings = []) := by
  simp only [Criterion.render, Except.bind_ok_iff, Except.pure_ok_iff] at h
  obtain ⟨ps, hps, rfl⟩ := h
  obtain ⟨hb, hv⟩ := Criterion.predicates_bindings hps
  obtain ⟨hc, hempty⟩ := conjoined_bindings hv
  exact ⟨hc.trans hb, hempty⟩

/-! ## Clauses -/

theorem conditionClause_bindings {p : TablePrefix} {cs : List Criterion} {f : Fragment}
    (h : Criterion.render p cs = .ok f) (keyword : Text) :
    (conditionClause keyword f).bindings = Criterion.bindings cs := by
  obtain ⟨hb, hempty⟩ := Criterion.render_bindings h
  unfold conditionClause
  split
  next hf => rw [← hb, hempty (List.isEmpty_iff.mp hf)]; rfl
  next => simpa using hb

theorem Row.bindings_assignments (row : Row) : row.assignments.bindings = row.bindings := by
  simp [Row.assignments, Fragment.bindings_joined, List.flatMap_map, assignment,
    Value.bindings_fragment, Row.bindings]

theorem Join.fragments_bindings {p : TablePrefix} {js : List Join} {f : Fragment}
    (h : Join.fragments p js = .ok f) :
    f.bindings = js.flatMap fun j => Criterion.bindings j.conditions := by
  induction js generalizing f with
  | nil => cases h; rfl
  | cons j rest ih =>
    simp only [Join.fragments, Join.fragment, Except.bind_ok_iff, Except.pure_ok_iff] at h
    obtain ⟨first, ⟨conditions, hc, rfl⟩, others, ho, rfl⟩ := h
    simp [conditionClause_bindings hc, ih ho]

namespace Statements

theorem selectFragment_bindings {p : TablePrefix} {st : Statements} {f : Fragment}
    (h : st.selectFragment p = .ok f) : f.bindings = st.bindings := by
  simp only [selectFragment, Except.bind_ok_iff, Except.pure_ok_iff] at h
  obtain ⟨tables, -, joins, hj, filters, hf, havings, hh, rfl⟩ := h
  simp only [Fragment.bindings_append, Fragment.bindings_ofText, Join.fragments_bindings hj,
    conditionClause_bindings hf, conditionClause_bindings hh, List.nil_append, List.append_nil,
    bindings]

theorem aggregate_bindings {p : TablePrefix} {st : Statements} {fn : Aggregate} {field : Field}
    {q : Query} (h : st.aggregate p fn field = .ok q) : q.bindings = st.bindings := by
  simp only [aggregate, Except.bind_ok_iff] at h
  obtain ⟨column, -, h⟩ := h
  split at h
  · simp only [Except.bind_ok_iff, Except.pure_ok_iff] at h
    obtain ⟨inner, hi, rfl⟩ := h
    have hinner := selectFragment_bindings hi
    simp only [Query.bindings, Fragment.bindings_append, Fragment.bindings_ofText, hinner,
      List.nil_append, List.append_nil]
    rfl
  · simp only [Except.bind_ok_iff, Except.pure_ok_iff] at h
    obtain ⟨f, hf, rfl⟩ := h
    have hsingle := selectFragment_bindings hf
    exact hsingle

theorem insertRow_bindings {p : TablePrefix} {st : Statements} {row : Row} {mode : InsertMode}
    {q : Query} (h : st.insertRow p row mode = .ok q) :
    q.bindings = row.bindings ++ Row.bindings st.onDuplicate := by
  simp only [insertRow, Except.bind_ok_iff, Except.pure_ok_iff] at h
  obtain ⟨target, -, -, -, rfl⟩ := h
  have hvalues : (Fragment.joined "," (row.map (·.2.fragment))).bindings = row.bindings := by
    simp [Fragment.bindings_joined, List.flatMap_map, Value.bindings_fragment, Row.bindings]
  simp only [Query.bindings, Fragment.bindings_append, Fragment.bindings_ofText, hvalues,
    List.nil_append, List.append_nil]
  split
  next hd => rw [List.isEmpty_iff.mp hd]; rfl
  next => rw [Fragment.bindings_append, Row.bindings_assignments]; rfl

theorem restriction_bindings {p : TablePrefix} {st : Statements} {f : Fragment}
    (h : st.restriction p = .ok f) : f.bindings = Criterion.bindings st.filters := by
  simp only [restriction, Except.bind_ok_iff, Except.pure_ok_iff] at h
  obtain ⟨filters, hf, rfl⟩ := h
  simp only [Fragment.bindings_append, Fragment.bindings_ofText, conditionClause_bindings hf,
    List.append_nil]

theorem update_bindings {p : TablePrefix} {st : Statements} {row : Row} {q : Query}
    (h : st.update p row = .ok q) : q.bindings = row.bindings ++ Criterion.bindings st.filters := by
  simp only [update, Except.bind_ok_iff, Except.pure_ok_iff] at h
  obtain ⟨target, -, -, -, restriction, hr, rfl⟩ := h
  simp only [Query.bindings, Fragment.bindings_append, Fragment.bindings_ofText,
    restriction_bindings hr, Row.bindings_assignments, List.nil_append]

theorem delete_bindings {p : TablePrefix} {st : Statements} {q : Query}
    (h : st.delete p = .ok q) : q.bindings = Criterion.bindings st.filters := by
  simp only [delete, Except.bind_ok_iff, Except.pure_ok_iff] at h
  obtain ⟨target, -, restriction, hr, rfl⟩ := h
  simp only [Query.bindings, Fragment.bindings_append, Fragment.bindings_ofText,
    restriction_bindings hr, List.nil_append]

/-- **What a query binds.** Whenever statements compile, the bindings of the
query are those of the operands it is made from, none lost, none twice, in the
order of the clauses: joins, WHERE and HAVING for a SELECT and for every
aggregate over it, grouped or not; the values of the row and then those of the
duplicate key for an insert; the assignments and then WHERE for an update;
WHERE for a deletion. -/
theorem bindings_of_compiled (p : TablePrefix) (st : Statements) :
    (∀ q, st.select p = .ok q → q.bindings = st.bindings) ∧
    (∀ fn field q, st.aggregate p fn field = .ok q → q.bindings = st.bindings) ∧
    (∀ row mode q, st.insertRow p row mode = .ok q →
      q.bindings = Row.bindings row ++ Row.bindings st.onDuplicate) ∧
    (∀ row q, st.update p row = .ok q →
      q.bindings = Row.bindings row ++ Criterion.bindings st.filters) ∧
    (∀ q, st.delete p = .ok q → q.bindings = Criterion.bindings st.filters) := by
  refine ⟨fun q h => ?_, fun _ _ _ h => aggregate_bindings h, fun _ _ _ h => insertRow_bindings h,
    fun _ _ h => update_bindings h, fun _ h => delete_bindings h⟩
  simp only [select, Except.bind_ok_iff, Except.pure_ok_iff] at h
  obtain ⟨f, hf, rfl⟩ := h
  exact selectFragment_bindings hf

theorem bindings_of_compiled_sample :
    (∃ q, sample.select ⟨some "app_"⟩ = .ok q ∧ q.bindings = sample.bindings) ∧
    (∃ q, sample.aggregate {} .sum (.column (.name "u.age")) = .ok q ∧
      q.bindings = sample.bindings) ∧
    (∃ q, sample.insertRow {} Row.sample .replace = .ok q ∧
      q.bindings = Row.bindings Row.sample ++ Row.bindings sample.onDuplicate) ∧
    (∃ q, sample.update {} Row.sample = .ok q ∧
      q.bindings = Row.bindings Row.sample ++ Criterion.bindings sample.filters) ∧
    (∃ q, sample.delete {} = .ok q ∧ q.bindings = Criterion.bindings sample.filters) ∧
    sample.bindings.map Binding.placeholder = [.string, .string, .integer, .integer, .integer] ∧
    (Row.bindings Row.sample).map Binding.placeholder = [.string] := by
  obtain ⟨hselect, -⟩ := bindings_of_compiled ⟨some "app_"⟩ sample
  obtain ⟨-, haggregate, hinsert, hupdate, hdelete⟩ := bindings_of_compiled {} sample
  exact ⟨⟨_, rfl, hselect _ rfl⟩, ⟨_, rfl, haggregate .sum (.column (.name "u.age")) _ rfl⟩,
    ⟨_, rfl, hinsert Row.sample .replace _ rfl⟩, ⟨_, rfl, hupdate Row.sample _ rfl⟩,
    ⟨_, rfl, hdelete _ rfl⟩, rfl, rfl⟩

end Statements

end BoundSql
