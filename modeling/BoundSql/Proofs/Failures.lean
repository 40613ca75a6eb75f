/-
When statements cannot be compiled, and with which error.

Statements can always be written down, so little is left to fail: a query
without the tables it needs, a row that cannot be written, and a BETWEEN
without values. `Ends` lists such causes in their order: the first that
applies is the error, and where none does there is a query. What is proved of
each step of compiling is its list, and lists go together as steps do.
-/
import BoundSql.Proofs.CriterionFacts
import BoundSql.Proofs.Operands
import Mathlib.Data.List.Infix

namespace BoundSql

variable {α β : Type} {p : TablePrefix}

/-! ## Causes in order -/

/-- A cause to fail: when it applies, and the errors it may give. -/
structure Cause where
  applies : Prop
  error : Error → Prop

/-- A computation ends with an error of the first cause that applies, and with
a result if none does. -/
def Ends : List Cause → Except Error α → Prop
  | [], x => ∃ a, x = .ok a
  | c :: rest, x => (c.applies → ∃ e, x = .error e ∧ c.error e) ∧ (¬c.applies → Ends rest x)

namespace Ends

variable {x : Except Error α} {cs ds : List Cause}

theorem pure (a : α) : Ends [] (Pure.pure a : Except Error α) := ⟨a, rfl⟩

/-- A step that fails for one cause and cannot go wrong otherwise. -/
theorem single {c : Cause} (h : (c.applies ∧ ∃ e, x = .error e ∧ c.error e) ∨
    (¬c.applies ∧ ∃ a, x = .ok a)) : Ends [c] x := by
  rcases h with ⟨hc, he⟩ | ⟨hc, ha⟩
  · exact ⟨fun _ => he, fun hn => absurd hc hn⟩
  · exact ⟨fun h => absurd h hc, fun _ => ha⟩

/-- The causes of a first step come before those of the next. -/
theorem bind {f : α → Except Error β} (hx : Ends cs x) (hf : ∀ a, x = .ok a → Ends ds (f a)) :
    Ends (cs ++ ds) (x >>= f) := by
  induction cs with
  | nil =>
    obtain ⟨a, rfl⟩ := hx
    exact hf a rfl
  | cons c cs ih =>
    refine ⟨fun hc => ?_, fun hc => ih (hx.2 hc)⟩
    obtain ⟨e, rfl, he⟩ := hx.1 hc
    exact ⟨e, rfl, he⟩

/-- What is done with a result gives no cause to fail. -/
theorem map {f : α → β} (hx : Ends cs x) : Ends cs (x >>= fun a => Pure.pure (f a)) := by
  have hbind : Ends (cs ++ []) (x >>= fun a => Pure.pure (f a)) := hx.bind fun a _ => pure (f a)
  rwa [List.append_nil] at hbind

end Ends

/-! ## BETWEEN without values -/

/-- Whether an operator has BETWEEN in it, in any case of its letters. -/
def NamesBetween (op : Text) : Prop := ∃ w, w <:+: op ∧ Text.upper w = "BETWEEN".toList

theorem hasBetween_iff {op : Text} : hasBetween op = true ↔ NamesBetween op := by
  rw [hasBetween, Text.occurs_iff, Text.upper, List.infix_map_iff]
  exact exists_congr fun w => and_congr_right fun _ => eq_comm

/-- A test of BETWEEN that has no values. -/
def Test.Bad : Test → Prop
  | .among _ op vs => vs = [] ∧ NamesBetween op
  | _ => False

/-- Among the tests is one of BETWEEN without values. The error tells its
operator and the text of its column. -/
def valuesMissing (p : TablePrefix) (ts : List Test) : Cause where
  applies := ∃ t ∈ ts, t.Bad
  error e := ∃ column op, NamesBetween op ∧ .among column op [] ∈ ts ∧
    e = .criterion (.twoValuesNeeded op (column.text p))

/-- The causes of two steps that write tests are one cause. -/
theorem Ends.valuesMissing_append {ts us : List Test} {x : Except Error α}
    (h : Ends [valuesMissing p ts, valuesMissing p us] x) :
    Ends [valuesMissing p (ts ++ us)] x := by
  refine ⟨fun ⟨t, ht, hbad⟩ => ?_, fun hnone => ?_⟩
  · by_cases hts : (valuesMissing p ts).applies
    · obtain ⟨e, he, c, op, hop, hmem, rfl⟩ := h.1 hts
      exact ⟨_, he, c, op, hop, List.mem_append_left us hmem, rfl⟩
    · have hus : (valuesMissing p us).applies := by
        rcases List.mem_append.mp ht with ht | ht
        · exact absurd ⟨t, ht, hbad⟩ hts
        · exact ⟨t, ht, hbad⟩
      obtain ⟨e, he, c, op, hop, hmem, rfl⟩ := (h.2 hts).1 hus
      exact ⟨_, he, c, op, hop, List.mem_append_right ts hmem, rfl⟩
  · have hts : ¬(valuesMissing p ts).applies := fun ⟨t, ht, hbad⟩ =>
      hnone ⟨t, List.mem_append_left us ht, hbad⟩
    have hus : ¬(valuesMissing p us).applies := fun ⟨t, ht, hbad⟩ =>
      hnone ⟨t, List.mem_append_right ts ht, hbad⟩
    exact (h.2 hts).2 hus

/-- One step that writes tests and then another. -/
theorem Ends.bind_tests {ts us : List Test} {x : Except Error α} {f : α → Except Error β}
    (hx : Ends [valuesMissing p ts] x) (hf : ∀ a, x = .ok a → Ends [valuesMissing p us] (f a)) :
    Ends [valuesMissing p (ts ++ us)] (x >>= f) :=
  (hx.bind hf).valuesMissing_append

theorem Ends.no_tests {x : Except Error α} (h : Ends [] x) : Ends [valuesMissing p []] x :=
  ⟨fun ⟨_, ht, _⟩ => absurd ht List.not_mem_nil, fun _ => h⟩

/-! ## Conditions -/

theorem Test.fragment_ends (t : Test) : Ends [valuesMissing p [t]] (t.fragment p) := by
  refine .single ?_
  cases t with
  | literal f | unary c op | compare c op v | columns c op other =>
    refine .inr ⟨fun ⟨t, ht, hbad⟩ => ?_, _, rfl⟩
    obtain rfl := List.mem_singleton.mp ht
    exact hbad
  | among c op vs =>
    have hbad : (valuesMissing p [.among c op vs]).applies ↔ vs = [] ∧ hasBetween op = true := by
      rw [hasBetween_iff]
      simp [valuesMissing, Test.Bad]
    rw [hbad]
    simp only [Test.fragment]
    rcases vs with _ | ⟨v, _ | ⟨w, _ | ⟨u, us⟩⟩⟩ <;> cases hb : hasBetween op
    case nil.true =>
      refine .inl ⟨⟨rfl, rfl⟩, .criterion (.twoValuesNeeded op (c.text p)), ?_, c, op,
        hasBetween_iff.mp hb, by simp, rfl⟩
      simp [listPredicate, hb]
    all_goals exact .inr ⟨by simp, by simp [listPredicate, hb]⟩

mutual

theorem Criterion.predicate?_ends : ∀ c : Criterion, Ends [valuesMissing p c.tests] (c.predicate? p)
  | .leaf j k t => by
    simp only [Criterion.predicate?, Criterion.tests]
    exact (Test.fragment_ends t).map
  | .group j k op inner => by
    simp only [Criterion.predicate?, Criterion.tests]
    exact (Criterion.predicates_ends inner).map

theorem Criterion.predicates_ends : ∀ cs : List Criterion,
    Ends [valuesMissing p (Criterion.allTests cs)] (Criterion.predicates p cs)
  | [] => by
    simp only [Criterion.predicates, Criterion.allTests]
    exact .no_tests ⟨[], rfl⟩
  | c :: rest => by
    simp only [Criterion.predicates, Criterion.allTests]
    exact (Criterion.predicate?_ends c).bind_tests fun _ _ => (Criterion.predicates_ends rest).map

end

theorem Criterion.render_ends (cs : List Criterion) :
    Ends [valuesMissing p (Criterion.allTests cs)] (Criterion.render p cs) :=
  (Criterion.predicates_ends cs).map

theorem Join.fragments_ends (js : List Join) :
    Ends [valuesMissing p (js.flatMap fun j => Criterion.allTests j.conditions)]
      (Join.fragments p js) := by
  induction js with
  | nil => exact .no_tests ⟨.empty, rfl⟩
  | cons j rest ih =>
    rw [List.flatMap_cons]
    exact (Criterion.render_ends j.conditions).map.bind_tests fun _ _ => ih.map

/-! ## Rows -/

def emptyRow (row : Row) : Cause where
  applies := row = []
  error e := e = .noData

/-- A row has a column with a blank name. -/
def blankKey (row : Row) : Cause where
  applies := ∃ entry ∈ row, Text.blank entry.1 = true
  error e := ∃ entry ∈ row, Text.blank entry.1 = true ∧ e = .statement (.blankKey entry.1)

theorem Row.check_ends (row : Row) : Ends [emptyRow row, blankKey row] row.check := by
  refine ⟨?_, fun hrow => .single ?_⟩
  · rintro rfl
    exact ⟨.noData, rfl, rfl⟩
  · have hempty : row.isEmpty = false := by simpa [emptyRow] using hrow
    simp only [Row.check, hempty]
    cases hfind : row.find? fun entry => Text.blank entry.1 with
    | none =>
      refine .inr ⟨fun ⟨entry, he, hblank⟩ => ?_, (), rfl⟩
      exact List.find?_eq_none.mp hfind entry he hblank
    | some entry =>
      have he := List.mem_of_find?_eq_some hfind
      have hblank := List.find?_some (p := fun entry : Text × Value => Text.blank entry.1) hfind
      exact .inl ⟨⟨entry, he, hblank⟩, _, rfl, entry, he, hblank, rfl⟩

/-! ## Queries -/

namespace Statements

variable {st : Statements}

/-- The tests of a query that reads: those of the joins, of WHERE, of HAVING. -/
def tests (st : Statements) : List Test :=
  (st.joins.flatMap fun j => Criterion.allTests j.conditions) ++
    (Criterion.allTests st.filters ++ Criterion.allTests st.havings)

/-- Nothing to read from. -/
def noSource (st : Statements) : Cause where
  applies := st.tables = []
  error e := e = .noTable

/-- Not one table to write to, but none or several. -/
def noTarget (st : Statements) : Cause where
  applies := st.tables.length ≠ 1
  error e := e = .noTable

theorem fromText_ends (st : Statements) : Ends [st.noSource] (st.fromText p) := by
  refine .single ?_
  unfold fromText
  cases htables : st.tables with
  | nil => exact .inl ⟨htables, .noTable, rfl, rfl⟩
  | cons t ts => exact .inr ⟨by simp [noSource, htables], _, rfl⟩

theorem targetText_ends (st : Statements) : Ends [st.noTarget] (st.targetText p) := by
  refine .single ?_
  unfold targetText
  rcases htables : st.tables with _ | ⟨t, _ | ⟨u, ts⟩⟩
  · exact .inl ⟨by simp [noTarget, htables], .noTable, rfl, rfl⟩
  · exact .inr ⟨by simp [noTarget, htables], _, rfl⟩
  · exact .inl ⟨by simp [noTarget, htables], .noTable, rfl, rfl⟩

theorem selectFragment_ends (st : Statements) :
    Ends [st.noSource, valuesMissing p st.tests] (st.selectFragment p) :=
  st.fromText_ends.bind fun _ _ => (Join.fragments_ends st.joins).bind_tests fun _ _ =>
    (Criterion.render_ends st.filters).bind_tests fun _ _ => (Criterion.render_ends st.havings).map

theorem restriction_ends (st : Statements) :
    Ends [valuesMissing p (Criterion.allTests st.filters)] (st.restriction p) :=
  (Criterion.render_ends st.filters).map

/-- What is selected, and how it is grouped, ordered and paged, has no part in
whether a SELECT fails. -/
theorem selectFragment_alike {st' : Statements} (htables : st'.tables = st.tables)
    (hjoins : st'.joins = st.joins) (hfilters : st'.filters = st.filters)
    (hhavings : st'.havings = st.havings) :
    Alike (fun _ _ => True) (st'.selectFragment p) (st.selectFragment p) := by
  unfold selectFragment fromText
  rw [htables, hjoins, hfilters, hhavings]
  exact AlikeBy.bind_same Eq.refl fun _ => AlikeBy.bind_same Eq.refl fun _ => AlikeBy.bind_same Eq.refl fun _ =>
    AlikeBy.bind_same Eq.refl fun _ => trivial

/-- An aggregate over a column fails as the SELECT does. -/
theorem aggregate_alike (st : Statements) (fn : Aggregate) (c : Column) :
    Alike (fun _ _ => True) (st.aggregate p fn (.column c)) (st.select p) := by
  have hfragment : ∀ st' : Statements, st'.tables = st.tables → st'.joins = st.joins →
      st'.filters = st.filters → st'.havings = st.havings → ∀ wrap : Fragment → Query,
      Alike (fun _ _ => True) (do return wrap (← st'.selectFragment p)) (st.select p) :=
    fun st' ht hj hf hh _ => (selectFragment_alike ht hj hf hh).bind fun _ _ _ => trivial
  simp only [aggregate, Field.text]
  change Alike _ (if st.isGrouped then _ else _) _
  split
  · exact hfragment st.unordered rfl rfl rfl rfl _
  · exact hfragment { st.unordered with selects := _ } rfl rfl rfl rfl _

/-- **Compiling fails exactly when it should.** A SELECT fails for want of a
table, then for a BETWEEN without values in its joins, WHERE or HAVING, however
deep in groups, and for nothing else. An aggregate fails over a group, and over
a column just as the SELECT does. A write fails for want of its one table, then
for its row (no column, a blank column name), then for a BETWEEN without values
in WHERE; an insert has no conditions to fail for. -/
theorem compiling_ends (p : TablePrefix) (st : Statements) :
    Ends [st.noSource, valuesMissing p st.tests] (st.select p) ∧
    (∀ fn inner, st.aggregate p fn (.group inner) = .error (.criterion .groupAsColumn)) ∧
    (∀ fn c e, st.aggregate p fn (.column c) = .error e ↔ st.select p = .error e) ∧
    Ends [st.noTarget, valuesMissing p (Criterion.allTests st.filters)] (st.delete p) ∧
    (∀ row, Ends [st.noTarget, emptyRow row, blankKey row,
      valuesMissing p (Criterion.allTests st.filters)] (st.update p row)) ∧
    (∀ row mode, Ends [st.noTarget, emptyRow row, blankKey row] (st.insertRow p row mode)) := by
  refine ⟨st.selectFragment_ends.map, fun _ _ => rfl, fun fn c e => ?_, ?_, fun row => ?_,
    fun row mode => ?_⟩
  · exact (st.aggregate_alike fn c).error_iff
  · exact st.targetText_ends.bind fun _ _ => st.restriction_ends.map
  · exact st.targetText_ends.bind fun _ _ => row.check_ends.bind fun _ _ => st.restriction_ends.map
  · exact st.targetText_ends.bind fun _ _ => row.check_ends.map

end Statements

end BoundSql
