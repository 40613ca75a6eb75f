/-
Which joins have their ON.

A join is accepted for its number of conditions: only a CROSS JOIN can do
without. It is written with an ON if its conditions are written as text, which
is another matter. Groups are left out if nothing in them is written, and blank
SQL on its own is written as blanks, which are cut off. So whether a list of
conditions is written can be read off the conditions without writing any
(`Criterion.silent`), and it says for every join whether it has its ON
(`joins_conditioned`).

What calls put behind ON are comparisons, which are always written. So a silent
join can be pushed as a statement, but not asked for by a call.
-/
import BoundSql.Proofs.Aggregates
import BoundSql.Proofs.Commuting
import BoundSql.Proofs.Connectives
import BoundSql.Proofs.Filters

namespace BoundSql

open Fragment (ofText)
open List (Forall₂)

variable {p : TablePrefix}

/-! ## Conditions that are not written -/

namespace Criterion

/-- Whether nothing can be seen of conditions none of which is a group that is
left out: there are none, or the only one is blank SQL without a NOT. -/
def unseen : List Criterion → Bool
  | [] => true
  | [.leaf j _ (.literal f)] => Text.blank f.inlined && !j.negates
  | _ => false

mutual

/-- Whether a condition is a group that is left out. -/
def leftOut : Criterion → Bool
  | .leaf .. => false
  | .group _ _ _ inner => unseen (shown inner)

/-- The conditions of a list without the groups that are left out. -/
def shown : List Criterion → List Criterion
  | [] => []
  | c :: rest => if c.leftOut then shown rest else c :: shown rest

end

/-- Whether a list of conditions is written as no text. -/
def silent (cs : List Criterion) : Bool := unseen (shown cs)

theorem leftOut_group (j : Connective) (k : Clause) (op : Text) (inner : List Criterion) :
    (group j k op inner).leftOut = silent inner := rfl

/-- The text of predicates is empty if there are none, or if nothing can be seen
of the only one. -/
theorem sql_conjoined_eq_nil {ps : List Predicate} :
    (conjoined ps).sql = [] ↔ ps = [] ∨ ∃ q, ps = [q] ∧ Text.blank q.front = true := by
  rw [sql_conjoined, Text.trim_eq_nil]
  cases ps with
  | nil => simp [alternation, Text.blank]
  | cons q rest => cases rest with
    | nil => simp [alternation]
    | cons r rest =>
      simp [alternation, Text.blank_append, r.blank_behind]

theorem unseen_iff {cs : List Criterion} (hmade : ∀ c ∈ cs, c.Made) {ps : List Predicate}
    (h : Forall₂ (fun c q => c.predicate? p = .ok (some q)) cs ps) :
    (conjoined ps).sql = [] ↔ unseen cs = true := by
  rw [sql_conjoined_eq_nil]
  cases h with
  | nil => simp [unseen]
  | @cons c q cs qs hc hrest => cases hrest with
    | cons => cases c <;> simp [unseen]
    | nil =>
      obtain ⟨hconnective, hblank⟩ := predicate?_eq_some (hmade c (by simp)) hc
      have hfront : (∃ r, [q] = [r] ∧ Text.blank r.front = true) ↔
          c.IsBlank ∧ c.connective.negates = false := by
        rw [← hblank, ← hconnective, ← q.blank_front]
        simp
      rw [hfront]
      cases c with
      | group => simp [unseen, IsBlank]
      | leaf j k t => cases t <;> simp [unseen, IsBlank, connective]

theorem shown_eq_filter (cs : List Criterion) : shown cs = cs.filter fun c => !c.leftOut := by
  induction cs with
  | nil => rfl
  | cons c cs ih => cases h : c.leftOut <;> simp [shown, h, ih]

theorem mem_of_shown {cs : List Criterion} {c : Criterion} (h : c ∈ shown cs) : c ∈ cs := by
  rw [shown_eq_filter] at h
  exact List.mem_of_mem_filter h

mutual

/-- A condition has a predicate unless it is left out. -/
theorem predicate?_leftOut : ∀ {c : Criterion} {o : Option Predicate}, c.Made →
    c.predicate? p = .ok o → (o = none ↔ c.leftOut = true)
  | .leaf j k t, o, _, h => by
    rw [predicate?_eq_none_iff h]
    simp [Vanishes, leftOut]
  | .group j k op inner, o, hc, h => by
    obtain ⟨f, hf, -⟩ := predicate?_group_eq_ok.mp h
    obtain ⟨ps, hps, rfl⟩ := render_eq_ok.mp hf
    rw [predicate?_eq_none_iff h, leftOut_group, silent,
      ← unseen_iff (fun c hc' => hc.inner c (mem_of_shown hc')) (shown_predicates hc.inner hps)]
    simp [Vanishes, hf]

/-- The predicates of a list are those of the conditions shown. -/
theorem shown_predicates : ∀ {cs : List Criterion} {ps : List Predicate}, (∀ c ∈ cs, c.Made) →
    predicates p cs = .ok ps → Forall₂ (fun c q => c.predicate? p = .ok (some q)) (shown cs) ps
  | [], ps, _, h => by
    cases h
    exact .nil
  | c :: rest, ps, hmade, h => by
    obtain ⟨o, qs, ho, hqs, rfl⟩ := predicates_cons_eq_ok.mp h
    have hrest := shown_predicates (fun d hd => hmade d (by simp [hd])) hqs
    have hleft := predicate?_leftOut (hmade c (by simp)) ho
    cases o with
    | none =>
      rw [shown, if_pos (hleft.mp rfl)]
      exact hrest
    | some q =>
      rw [shown, if_neg (by simp [← hleft])]
      exact .cons ho hrest

end

/-- Conditions are written as no text exactly if they are silent. -/
theorem render_eq_nil_iff {cs : List Criterion} (hmade : ∀ c ∈ cs, c.Made) {f : Fragment}
    (h : render p cs = .ok f) : f.sql = [] ↔ silent cs = true := by
  obtain ⟨ps, hps, rfl⟩ := render_eq_ok.mp h
  exact unseen_iff (fun c hc => hmade c (mem_of_shown hc)) (shown_predicates hmade hps)

theorem blank_render {cs : List Criterion} {f : Fragment} (h : render p cs = .ok f) (hne : f.sql ≠ []) :
    Text.blank f.sql = false := by
  obtain ⟨ps, -, rfl⟩ := render_eq_ok.mp h
  rw [sql_conjoined] at hne ⊢
  rw [Text.blank_trim]
  exact Text.trim_ne_nil.mp hne

theorem isBlank_of_unseen {cs : List Criterion} (h : unseen cs = true) : ∀ c ∈ cs, c.IsBlank := by
  unfold unseen at h
  split at h
  · simp
  next j k f =>
    rw [Bool.and_eq_true] at h
    exact List.forall_mem_singleton.mpr h.1
  · cases h

mutual

/-- A condition that is left out has no tests but blank SQL. -/
theorem tests_of_leftOut : ∀ {c : Criterion}, c.leftOut = true →
    ∀ t ∈ c.tests, ∃ f, t = .literal f ∧ Text.blank f.inlined = true
  | .leaf .., h, _, _ => by cases h
  | .group _ _ _ _, h, t, ht => tests_of_shown (isBlank_of_unseen h) t ht

theorem tests_of_shown : ∀ {cs : List Criterion}, (∀ c ∈ shown cs, c.IsBlank) →
    ∀ t ∈ allTests cs, ∃ f, t = .literal f ∧ Text.blank f.inlined = true
  | [], _, _, ht => by cases ht
  | c :: rest, h, t, ht => by
    rw [shown] at h
    rcases List.mem_append.mp ht with ht | ht
    · cases hleft : c.leftOut with
      | true => exact tests_of_leftOut hleft t ht
      | false =>
        have hblank : c.IsBlank := h c (by simp [hleft])
        cases c with
        | group => exact hblank.elim
        | leaf j k u =>
          obtain rfl := List.mem_singleton.mp ht
          cases t with
          | literal f => exact ⟨f, rfl, hblank⟩
          | _ => exact hblank.elim
    · refine tests_of_shown (fun d hd => h d ?_) t ht
      split <;> simp [hd]

end

/-- Where a test is made of a column, conditions are written. -/
theorem tests_of_silent {cs : List Criterion} (h : silent cs = true) :
    ∀ t ∈ allTests cs, ∃ f, t = .literal f ∧ Text.blank f.inlined = true :=
  tests_of_shown (isBlank_of_unseen h)

end Criterion

/-! ## Joins -/

namespace Join

theorem make_eq_ok {table : TableRef} {kind : JoinKind} {cs : List Criterion} {j : Join}
    (h : make table kind cs = .ok j) : j = ⟨table, kind, cs⟩ ∧ (kind ≠ .cross → cs ≠ []) := by
  unfold make at h
  split at h
  · cases h
  · split at h
    · cases h
    next hcount =>
      refine ⟨(Except.ok.inj h).symm, fun hkind hnil => hcount ?_⟩
      simp [hkind, hnil]

/-- A clause is a join with an ON and its conditions, which can be seen. -/
def Conditioned (p : TablePrefix) (j : Join) (clause : Text) : Prop :=
  ∃ f, Criterion.render p j.conditions = .ok f ∧ Text.blank f.sql = false ∧
    clause = " " ++ j.kind.keyword ++ " JOIN " ++ j.table.text p ++ " ON " ++ f.sql

/-- What a join is written as: with its ON, unless its conditions are silent. -/
theorem fragment_conditioned {j : Join} (hmade : ∀ c ∈ j.conditions, c.Made) {f : Fragment}
    (h : j.fragment p = .ok f) :
    (Criterion.silent j.conditions = true →
      f.sql = " " ++ j.kind.keyword ++ " JOIN " ++ j.table.text p) ∧
    (j.Conditioned p f.sql ↔ Criterion.silent j.conditions = false) := by
  obtain ⟨g, hg, rfl⟩ : ∃ g, Criterion.render p j.conditions = .ok g ∧
      ofText (" " ++ j.kind.keyword ++ " JOIN " ++ j.table.text p) ++ conditionClause " ON " g = f := by
    simpa only [fragment, Except.bind_ok_iff, Except.pure_ok_iff] using h
  have hnil := Criterion.render_eq_nil_iff hmade hg
  cases hsilent : Criterion.silent j.conditions with
  | true =>
    have hclause : conditionClause " ON " g = .empty := by
      rw [conditionClause, if_pos (List.isEmpty_iff.mpr (hnil.mpr hsilent))]
    rw [hclause, Fragment.append_empty]
    refine ⟨fun _ => rfl, iff_of_false ?_ (by simp)⟩
    rintro ⟨f, -, -, hf⟩
    have hlength := congrArg List.length hf
    simp at hlength
  | false =>
    have hne : g.sql ≠ [] := fun h => by rw [hnil.mp h] at hsilent; cases hsilent
    refine ⟨by simp, iff_of_true ⟨g, hg, Criterion.blank_render hg hne, ?_⟩ rfl⟩
    rw [conditionClause, if_neg (by simpa using hne)]
    simp

/-- The SQL of joins is that of one join after the other. -/
theorem fragments_eq_ok {js : List Join} {f : Fragment} (h : fragments p js = .ok f) :
    ∃ fs, Forall₂ (fun j g => j.fragment p = .ok g) js fs ∧ f.sql = (fs.map Fragment.sql).flatten := by
  induction js generalizing f with
  | nil =>
    cases h
    exact ⟨[], .nil, rfl⟩
  | cons j js ih =>
    simp only [fragments, Except.bind_ok_iff, Except.pure_ok_iff] at h
    obtain ⟨g, hg, rest, hrest, rfl⟩ := h
    obtain ⟨gs, hgs, hsql⟩ := ih hrest
    exact ⟨g :: gs, .cons hg hgs, by simp [hsql]⟩

end Join

/-! ### Joins asked for by calls -/

/-- A condition with an operand is a test of a column. -/
theorem Criterion.make_operand {field : Field} {op : Text} {operand : Operand} {j : Connective}
    {k : Clause} {c : Criterion} (h : make field op (some operand) j k = .ok c) :
    c.Made ∧ ∃ t, c.tests = [t] ∧ ∀ f, t ≠ .literal f := by
  cases field with
  | group => cases h
  | column column =>
    refine ⟨.single h, ?_⟩
    cases hop : (Text.trim op).isEmpty with
    | true => rcases operand with v | vs | other | inner <;> cases column <;> simp [make, hop] at h
    | false =>
      rcases operand with v | vs | other | inner <;> simp [make, hop, testOf] at h <;> subst h <;>
        exact ⟨_, rfl, by simp⟩

theorem JoinPart.criteria_conditions {k : Clause} {parts : List JoinPart} {cs : List Criterion}
    (h : Condition.criteria k (conditions parts) = .ok cs) :
    ∀ c ∈ cs, c.Made ∧ ∃ t, c.tests = [t] ∧ ∀ f, t ≠ .literal f := by
  induction parts generalizing cs with
  | nil =>
    cases h
    simp
  | cons part parts ih => cases part with
    | named asName => exact ih h
    | on j left operator right =>
      change Condition.criteria k (.test j left operator (some right) :: conditions parts) = .ok cs at h
      simp only [Condition.criteria, Condition.criterion?, Except.bind_ok_iff, Except.pure_ok_iff] at h
      obtain ⟨_, ⟨c, hc, rfl⟩, others, hothers, rfl⟩ := h
      intro d hd
      rcases List.mem_cons.mp hd with rfl | hd
      · exact Criterion.make_operand hc
      · exact ih hothers d hd

theorem Join.ofParts_spec {kind : JoinKind} {table : Field} {parts : List JoinPart} {j : Join}
    (h : ofParts kind table parts = .ok j) :
    (∀ c ∈ j.conditions, c.Made) ∧ (j.kind ≠ .cross → Criterion.silent j.conditions = false) := by
  simp only [ofParts, Except.bind_ok_iff] at h
  obtain ⟨cs, hcs, ref, -, hmake⟩ := h
  obtain ⟨rfl, hne⟩ := make_eq_ok hmake
  have htests := JoinPart.criteria_conditions hcs
  refine ⟨fun c hc => (htests c hc).1, fun hkind => Bool.eq_false_iff.mpr fun hsilent => ?_⟩
  obtain ⟨c, hc⟩ := List.exists_mem_of_ne_nil cs (hne hkind)
  obtain ⟨-, t, ht, hraw⟩ := htests c hc
  obtain ⟨f, hf, -⟩ := Criterion.tests_of_silent hsilent t
    (Criterion.mem_allTests.mpr ⟨c, hc, by simp [ht]⟩)
  exact hraw f hf

/-- Every join of a builder was asked for by a call. -/
theorem Builder.ofParts_of_mem_joins {config : Config} {calls : List Call} {j : Join}
    (h : j ∈ (applyAll { config } calls).statements.joins) :
    ∃ kind table parts, Join.ofParts kind table parts = .ok j := by
  rw [applyAll_eq_record] at h
  rw [(Statements.grown_pushAll {} (accepted (calls.flatMap Call.statements))).joins] at h
  obtain ⟨s, hs, hj⟩ := List.mem_filterMap.mp h
  obtain ⟨call, -, hcall⟩ := List.mem_flatMap.mp (mem_accepted.mp hs)
  have hpart := Call.part_of_mem_statements hcall
  cases s <;> cases hj
  cases call with
  | join kind table parts =>
    have hparts : Statement.join <$> Join.ofParts kind table parts = .ok (.join j) :=
      (List.mem_singleton.mp hcall).symm
    refine ⟨kind, table, parts, ?_⟩
    cases hmade : Join.ofParts kind table parts with
    | error e => rw [hmade] at hparts; cases hparts
    | ok i => rw [hmade] at hparts; cases hparts; rfl
  | filter c | having c =>
    -- a condition for ON is none
    obtain ⟨d, -, hs⟩ := Call.mem_ofCondition hcall
    rcases Criterion.statement_cases hs with ⟨-, h⟩ | ⟨-, h⟩ <;> cases h
  | _ => cases hpart

/-! ## Queries -/

namespace Statements

/-- The SQL of a SELECT has, behind its tables, a clause for each of its joins,
in order, and `P` is true of each join and its clause. -/
def JoinsWritten (p : TablePrefix) (st : Statements) (P : Join → Text → Prop) (sql : Text) : Prop :=
  ∃ tables clauses rest, st.fromText p = .ok tables ∧ Forall₂ P st.joins clauses ∧
    sql = "SELECT " ++ (if st.distinct then "DISTINCT ".toList else []) ++ st.projectionText p ++
      " FROM " ++ tables ++ clauses.flatten ++ rest

theorem select_joinsWritten {st : Statements} {q : Query} (h : st.select p = .ok q) :
    st.JoinsWritten p (fun j clause => ∃ f, j.fragment p = .ok f ∧ clause = f.sql) q.sql := by
  simp only [select, selectFragment, Except.bind_ok_iff, Except.pure_ok_iff] at h
  obtain ⟨_, ⟨tables, htables, joins, hjoins, filters, -, havings, -, rfl⟩, rfl⟩ := h
  obtain ⟨fs, hfs, hsql⟩ := Join.fragments_eq_ok hjoins
  let rest := (conditionClause " WHERE " filters).sql ++
    listClause " GROUP BY " (st.groupings.map (·.text p)) ++ (conditionClause " HAVING " havings).sql ++
    st.orderingText p
  refine ⟨tables, fs.map Fragment.sql, rest, htables, ?_, ?_⟩
  · rw [List.forall₂_map_right_iff]
    exact hfs.imp fun j g hg => ⟨g, hg, rfl⟩
  · simp only [Query.sql, Fragment.sql_append, Fragment.sql_ofText, hsql, rest, orderingText,
      List.append_assoc]

theorem JoinsWritten.mono {st : Statements} {P Q : Join → Text → Prop} {sql : Text}
    (h : st.JoinsWritten p P sql) (hPQ : ∀ j ∈ st.joins, ∀ clause, P j clause → Q j clause) :
    st.JoinsWritten p Q sql := by
  obtain ⟨tables, clauses, rest, htables, hclauses, hsql⟩ := h
  refine ⟨tables, clauses, rest, htables, ?_, hsql⟩
  have hmem := (List.forall₂_and_left st.joins clauses).mpr ⟨fun j hj => hj, hclauses⟩
  exact hmem.imp fun j clause ⟨hj, hP⟩ => hPQ j hj clause hP

end Statements

/-- In a query that calls make, every join that is not CROSS has its ON. -/
theorem Builder.joins_conditioned_of_calls (config : Config) (calls : List Call) {q : Query}
    (h : (applyAll { config } calls).query .select = .ok q) :
    (applyAll { config } calls).statements.JoinsWritten config.toTablePrefix
      (fun j clause => j.kind ≠ .cross → j.Conditioned config.toTablePrefix clause) q.sql := by
  have hnone := error_eq_none h
  rw [query_select hnone, config_applyAll] at h
  refine (Statements.select_joinsWritten h).mono fun j hj clause hclause hkind => ?_
  obtain ⟨kind, table, parts, hparts⟩ := ofParts_of_mem_joins hj
  obtain ⟨hmade, hsilent⟩ := Join.ofParts_spec hparts
  obtain ⟨f, hf, rfl⟩ := hclause
  exact (Join.fragment_conditioned hmade hf).2.mpr (hsilent hkind)

/-- **A join has its ON exactly if something is written of its conditions.** In
the SQL of a SELECT each join that was accepted is followed by ON and its
conditions, which can be seen, unless they are silent; then nothing stands behind
its table. A join that is not CROSS has conditions, but that does not keep it
from being silent. -/
theorem Statements.joins_conditioned {st : Statements} {q : Query}
    (hjoins : ∀ j ∈ st.joins, ∃ table kind cs, Join.make table kind cs = .ok j ∧ ∀ c ∈ cs, c.Made)
    (h : st.select p = .ok q) :
    st.JoinsWritten p (fun j clause => (j.kind ≠ .cross → j.conditions ≠ []) ∧
      (j.Conditioned p clause ↔ Criterion.silent j.conditions = false) ∧
      (Criterion.silent j.conditions = true →
        clause = " " ++ j.kind.keyword ++ " JOIN " ++ j.table.text p)) q.sql := by
  refine (select_joinsWritten h).mono fun j hj clause hclause => ?_
  obtain ⟨table, kind, cs, hmake, hmade⟩ := hjoins j hj
  obtain ⟨rfl, hne⟩ := Join.make_eq_ok hmake
  obtain ⟨f, hf, rfl⟩ := hclause
  obtain ⟨hsilent, hconditioned⟩ := Join.fragment_conditioned hmade hf
  exact ⟨hne, hconditioned, hsilent⟩

/-- Blank SQL under NOT is not silent, groups with blank SQL are. A cross join
needs no conditions. -/
theorem Statements.joins_conditioned_sample :
    let bare : Criterion := .nested [.raw (ofText " ") .and .joinOn] .or .joinOn
    let joins : List Join :=
      [⟨⟨.named "b", none⟩, .left, [bare, .raw (ofText "") .andNot .joinOn]⟩,
        ⟨⟨.named "c", some "x"⟩, .right, [bare, bare]⟩, ⟨⟨.named "d", none⟩, .cross, []⟩]
    let st : Statements := { tables := [⟨.named "a", none⟩], joins := joins }
    (∀ j ∈ joins, ∃ table kind cs, Join.make table kind cs = .ok j ∧ ∀ c ∈ cs, c.Made) ∧
    joins.map (fun j => Criterion.silent j.conditions) = [false, true, true] ∧
    ∃ q, st.select {} = .ok q ∧
      q.sql = "SELECT * FROM a LEFT JOIN b ON NOT RIGHT JOIN c AS x CROSS JOIN d".toList ∧
      st.JoinsWritten {} (fun j clause => j.Conditioned {} clause ↔
        Criterion.silent j.conditions = false) q.sql := by
  intro bare joins st
  have hbare : bare.Made := .group _ _ _ (List.forall_mem_singleton.mpr (.raw _ _ _))
  have hmake : ∀ j ∈ joins, Join.make j.table j.kind j.conditions = .ok j :=
    List.forall_mem_cons.mpr ⟨rfl, List.forall_mem_cons.mpr ⟨rfl, List.forall_mem_singleton.mpr rfl⟩⟩
  have hmade : ∀ j ∈ joins, ∀ c ∈ j.conditions, c.Made := by
    refine List.forall_mem_cons.mpr ⟨?_, List.forall_mem_cons.mpr ⟨?_, List.forall_mem_singleton.mpr ?_⟩⟩
    · exact List.forall_mem_cons.mpr ⟨hbare, List.forall_mem_singleton.mpr (.raw _ _ _)⟩
    · exact List.forall_mem_cons.mpr ⟨hbare, List.forall_mem_singleton.mpr hbare⟩
    · exact fun _ h => absurd h List.not_mem_nil
  have hjoins : ∀ j ∈ joins, ∃ table kind cs, Join.make table kind cs = .ok j ∧ ∀ c ∈ cs, c.Made :=
    fun j hj => ⟨_, _, _, hmake j hj, hmade j hj⟩
  obtain ⟨q, hq⟩ : ∃ q, st.select {} = .ok q := ⟨_, rfl⟩
  have hsql : (st.select {}).map Query.sql =
      .ok "SELECT * FROM a LEFT JOIN b ON NOT RIGHT JOIN c AS x CROSS JOIN d".toList := by
    decide +kernel
  exact ⟨hjoins, by decide, q, hq, Except.ok.inj (hq ▸ hsql),
    (joins_conditioned hjoins hq).mono fun _ _ _ h => h.2.1⟩

/-- A LEFT JOIN on an empty group is accepted, and has no ON. -/
theorem Statements.left_join_without_on :
    let j : Join := ⟨⟨.named "b", none⟩, .left, [.nested [] .and .joinOn]⟩
    let st : Statements := { tables := [⟨.named "a", none⟩], joins := [j] }
    Join.make j.table j.kind j.conditions = .ok j ∧ ∃ q, st.select {} = .ok q ∧
      q.sql = "SELECT * FROM a LEFT JOIN b".toList ∧
      ¬ st.JoinsWritten {} (fun j clause => j.kind ≠ .cross → j.Conditioned {} clause) q.sql := by
  refine ⟨rfl, _, rfl, rfl, ?_⟩
  rintro ⟨tables, clauses, rest, htables, hclauses, -⟩
  obtain ⟨clause, _, hclause, -, rfl⟩ := List.forall₂_cons_left_iff.mp hclauses
  -- an empty group has no text to be seen
  obtain ⟨f, hf, hblank, -⟩ := hclause nofun
  cases hf
  cases hblank

end BoundSql
