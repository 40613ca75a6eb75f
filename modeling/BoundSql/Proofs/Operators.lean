/-
Where an operator without an operand is written.

Behind a column the operator is the end of its condition; for a group nothing is
written for it. So two conditions on one field that differ in their operators,
such as those for IS NULL and for IS NOT NULL, are told apart by the text around
them, however deep they stand in it, exactly if the field is a column
(`operators_kept`).

What an operator does to the texts around it is one relation between texts: they
are the same, or the same but for one part (`Text.Differ`). Both relations go
through all that the compiler does around a condition (`Text.Persists`), so the
walk from a condition up to a query is made once.
-/
import BoundSql.Proofs.Aggregates
import BoundSql.Proofs.Congruence
import BoundSql.Proofs.Connectives
import BoundSql.Proofs.Filters

namespace BoundSql

open Fragment (ofText)
open Text (Snug trim trimStart trimEnd blank)
open Text.InOrder (Solid solid_trim)

variable {p : TablePrefix}

/-! ## Texts that differ in one part -/

namespace Text

/-- Two texts that are the same but for one part, `t` in the one and `u` in the other. -/
def Differ (t u w v : Text) : Prop := ∃ a b, w = a ++ t ++ b ∧ v = a ++ u ++ b

/-- A relation between texts that stays when blanks at the ends are cut off both
and when the same text is put in front of both or behind both. -/
structure Persists (R : Text → Text → Prop) : Prop where
  append_left {w v : Text} (l : Text) : R w v → R (l ++ w) (l ++ v)
  append_right {w v : Text} (r : Text) : R w v → R (w ++ r) (v ++ r)
  trim {w v : Text} : R w v → R (Text.trim w) (Text.trim v)
  isEmpty_eq {w v : Text} : R w v → w.isEmpty = v.isEmpty

theorem Persists.refl {R : Text → Text → Prop} (hR : Persists R) (h : R [] []) (t : Text) : R t t := by
  simpa using hR.append_left t h

theorem persists_eq : Persists Eq where
  append_left _ h := h ▸ rfl
  append_right _ h := h ▸ rfl
  trim h := h ▸ rfl
  isEmpty_eq h := h ▸ rfl

/-- Nothing is cut off a solid text, only off what stands around it. -/
theorem trim_around {t : Text} (h : Solid t) (a b : Text) :
    trim (a ++ t ++ b) = trimStart a ++ t ++ trimEnd b := by
  obtain ⟨l, hl, ha⟩ := trimStart_spec a
  obtain ⟨r, hr, hb⟩ := trimEnd_spec b
  have hsnug : Snug (trimStart a ++ t ++ trimEnd b) := by
    constructor
    · intro c hc
      cases hs : trimStart a with
      | nil =>
        obtain ⟨d, u, rfl⟩ := List.exists_cons_of_ne_nil h.1
        exact h.2.head c (by simpa [hs] using hc)
      | cons d s => exact head_trimStart a c (by simpa [hs] using hc)
    · intro c hc
      obtain hs | ⟨s, d, hs⟩ := List.eq_nil_or_concat (trimEnd b)
      · obtain ⟨u, d, rfl⟩ := (List.eq_nil_or_concat t).resolve_left h.1
        exact h.2.last c (by simpa [hs] using hc)
      · exact last_trimEnd b c (by simpa [hs] using hc)
  calc trim (a ++ t ++ b) = trim (l ++ (trimStart a ++ t ++ trimEnd b) ++ r) := by
        conv_lhs => rw [ha, hb]
        simp only [List.append_assoc]
    _ = trimStart a ++ t ++ trimEnd b := trim_eq hl hr hsnug

theorem persists_differ {t u : Text} (ht : Solid t) (hu : Solid u) : Persists (Differ t u) where
  append_left := by
    rintro _ _ l ⟨a, b, rfl, rfl⟩
    exact ⟨l ++ a, b, by simp, by simp⟩
  append_right := by
    rintro _ _ r ⟨a, b, rfl, rfl⟩
    exact ⟨a, b ++ r, by simp, by simp⟩
  trim := by
    rintro _ _ ⟨a, b, rfl, rfl⟩
    exact ⟨trimStart a, trimEnd b, trim_around ht a b, trim_around hu a b⟩
  isEmpty_eq := by
    rintro _ _ ⟨a, b, rfl, rfl⟩
    rw [List.isEmpty_eq_false_iff.mpr (by simp [ht.1]), List.isEmpty_eq_false_iff.mpr (by simp [hu.1])]

theorem Differ.ne {t u w v : Text} (htu : t ≠ u) (h : Differ t u w v) : w ≠ v := by
  obtain ⟨a, b, rfl, rfl⟩ := h
  intro hwv
  exact htu (List.append_cancel_left (List.append_cancel_right hwv))

end Text

open Text (Differ Persists)

/-! ## From a condition to the text around it -/

section Around

variable {R : Text → Text → Prop}

/-- Fragments with related texts. -/
def OnSql (R : Text → Text → Prop) (f g : Fragment) : Prop := R f.sql g.sql

/-- What two conditions are written as, if they are written at all. -/
inductive Paired (R : Text → Text → Prop) : Option Predicate → Option Predicate → Prop
  | none : R [] [] → Paired R none none
  | some {q r : Predicate} : Congruence.Predicates (OnSql R) q r → Paired R (some q) (some r)

theorem paired_eq_refl (o : Option Predicate) : Paired Eq o o := by
  cases o with
  | none => exact .none rfl
  | some q => exact .some ⟨rfl, rfl⟩

theorem conjoined_paired (hR : Persists R) {o o' : Option Predicate} (h : Paired R o o')
    (as bs : List Predicate) :
    OnSql R (conjoined (as ++ (o.toList ++ bs))) (conjoined (as ++ (o'.toList ++ bs))) := by
  cases h with
  | none h => exact hR.refl h _
  | @some q r h =>
    simp only [Option.toList, List.singleton_append, OnSql, sql_conjoined]
    refine hR.trim ?_
    cases as with
    | nil =>
      simp only [List.nil_append, alternation, Predicate.front, h.connective]
      exact hR.append_right _ (hR.append_left _ h.fragment)
    | cons a as =>
      simp only [List.cons_append, alternation, List.flatMap_append, List.flatMap_cons,
        Predicate.behind, h.connective]
      exact hR.append_left _ (hR.append_left _ (hR.append_right _ (hR.append_left _ h.fragment)))

theorem groupPredicate_paired (hR : Persists R) {f g : Fragment} (h : OnSql R f g) (j : Connective) :
    Paired R ((groupPredicate f).map (⟨j, ·⟩)) ((groupPredicate g).map (⟨j, ·⟩)) := by
  have hempty := hR.isEmpty_eq h
  rw [groupPredicate, groupPredicate, ← hempty]
  split
  next hf =>
    rw [hf, eq_comm] at hempty
    rw [OnSql, List.isEmpty_iff.mp hf, List.isEmpty_iff.mp hempty] at h
    exact .none h
  next => exact .some ⟨rfl, hR.append_right _ (hR.append_left _ h)⟩

theorem conditionClause_persists (hR : Persists R) {f g : Fragment} (h : OnSql R f g) (keyword : Text) :
    OnSql R (conditionClause keyword f) (conditionClause keyword g) := by
  have hempty := hR.isEmpty_eq h
  rw [conditionClause, conditionClause, ← hempty]
  split
  next hf =>
    rw [hf, eq_comm] at hempty
    rw [OnSql, List.isEmpty_iff.mp hf, List.isEmpty_iff.mp hempty] at h
    exact h
  next => exact hR.append_left keyword h

namespace Criterion

theorem predicates_append (cs ds : List Criterion) :
    predicates p (cs ++ ds) = do return (← predicates p cs) ++ (← predicates p ds) := by
  induction cs with
  | nil => cases h : predicates p ds <;> simp [predicates, h, bind, Except.bind, pure, Except.pure]
  | cons c cs ih =>
    simp only [List.cons_append, predicates, ih, bind_assoc, pure_bind, List.append_assoc]

theorem predicate?_group (j : Connective) (k : Clause) (op : Text) (inner : List Criterion) :
    predicate? p (.group j k op inner) = do
      return (groupPredicate (← render p inner)).map (⟨j, ·⟩) := by
  simp only [predicate?, render, bind_assoc, pure_bind]

variable {c d e e' : Criterion}

theorem render_paired (hR : Persists R) (h : Alike (Paired R) (c.predicate? p) (d.predicate? p))
    (before after : List Criterion) :
    Alike (OnSql R) (render p (before ++ c :: after)) (render p (before ++ d :: after)) := by
  simp only [render, predicates_append, predicates, bind_assoc, pure_bind]
  exact AlikeBy.bind_same Eq.refl fun as => h.bind fun o o' ho => AlikeBy.bind_same Eq.refl fun bs =>
    conjoined_paired hR ho as bs

/-- A condition with `d` in the place of `c`, which is the condition itself or
stands in a group of it, however deep. -/
inductive Swapped (c d : Criterion) : Criterion → Criterion → Prop
  | self : Swapped c d c d
  | group {e e' : Criterion} (j : Connective) (k : Clause) (op : Text)
      (before after : List Criterion) : Swapped c d e e' →
      Swapped c d (.group j k op (before ++ e :: after)) (.group j k op (before ++ e' :: after))

theorem Swapped.paired (hR : Persists R) (hswapped : Swapped c d e e')
    (h : Alike (Paired R) (c.predicate? p) (d.predicate? p)) :
    Alike (Paired R) (e.predicate? p) (e'.predicate? p) := by
  induction hswapped with
  | self => exact h
  | group j k op before after _ ih =>
    rw [predicate?_group, predicate?_group]
    exact (render_paired hR ih before after).bind fun f g hfg => groupPredicate_paired hR hfg j

end Criterion

/-! ## From the filters to a query -/

/-- Queries with related texts. -/
def Query.OnSql (R : Text → Text → Prop) (q r : Query) : Prop := R q.sql r.sql

namespace Statements

variable {st : Statements} {ds : List Criterion}

/-- Statements with other filters. -/
def withFilters (st : Statements) (ds : List Criterion) : Statements := { st with filters := ds }

@[simp] theorem isGrouped_withFilters : (st.withFilters ds).isGrouped = st.isGrouped := rfl

theorem source_persists (hR : Persists R)
    (h : Alike (OnSql R) (Criterion.render p st.filters) (Criterion.render p ds)) :
    Alike (OnSql R) (st.sourceFragment p) ((st.withFilters ds).sourceFragment p) := by
  refine AlikeBy.bind_same Eq.refl fun tables => AlikeBy.bind_same Eq.refl fun joins => h.bind fun f g hfg =>
    AlikeBy.bind_same Eq.refl fun havings => ?_
  have hclause := conditionClause_persists hR hfg " WHERE "
  exact hR.append_right _ (hR.append_right _ (hR.append_left _ hclause))

theorem select_persists (hR : Persists R)
    (h : Alike (OnSql R) (Criterion.render p st.filters) (Criterion.render p ds)) :
    Alike (Query.OnSql R) (st.select p) ((st.withFilters ds).select p) := by
  rw [select_eq, select_eq]
  exact (source_persists hR h).bind fun f g hfg => hR.append_right _ (hR.append_left _ hfg)

theorem aggregate_persists (hR : Persists R)
    (h : Alike (OnSql R) (Criterion.render p st.filters) (Criterion.render p ds))
    (fn : Aggregate) (field : Field) :
    Alike (Query.OnSql R) (st.aggregate p fn field) ((st.withFilters ds).aggregate p fn field) := by
  cases field with
  | group inner => exact rfl
  | column c =>
    have hfield : Field.text p (.column c) = .ok (c.text p) := rfl
    rw [aggregate_eq st fn hfield, aggregate_eq (st.withFilters ds) fn hfield]
    refine (source_persists hR h).bind fun f g hfg => ?_
    change OnSql R (st.aggregated p _ f) ((st.withFilters ds).aggregated p _ g)
    rw [aggregated, aggregated, isGrouped_withFilters]
    split
    · exact hR.append_right _ (hR.append_left _ (hR.append_left _ hfg))
    · exact hR.append_left _ hfg

theorem restriction_persists (hR : Persists R)
    (h : Alike (OnSql R) (Criterion.render p st.filters) (Criterion.render p ds)) :
    Alike (OnSql R) (st.restriction p) ((st.withFilters ds).restriction p) :=
  h.bind fun _ _ hfg => hR.append_right _ (conditionClause_persists hR hfg " WHERE ")

theorem push_withFilters (st : Statements) (ds : List Criterion) (s : Statement) :
    (st.withFilters ds).push s = (st.push s).withFilters (ds ++ s.filter?.toList) := by
  cases s <;> first | rfl | simp [withFilters, push, Statement.filter?]

/-- What is pushed goes on behind the filters, whichever these are. -/
theorem pushAll_withFilters (st : Statements) (ds : List Criterion) (ss : List Statement) :
    (st.withFilters ds).pushAll ss =
      (st.pushAll ss).withFilters (ds ++ ss.filterMap Statement.filter?) := by
  induction ss generalizing st ds with
  | nil => simp [pushAll]
  | cons s ss ih =>
    have hs := ih (st.push s) (ds ++ s.filter?.toList)
    rw [← push_withFilters, List.append_assoc] at hs
    rw [show (s :: ss).filterMap Statement.filter? =
      s.filter?.toList ++ ss.filterMap Statement.filter? by cases hf : s.filter? <;> simp [hf]]
    exact hs

end Statements

namespace Builder

variable {b : Builder} {ds : List Criterion}

/-- Whether the query asked for is over the rows that WHERE leaves. -/
def Request.filtered : Request → Bool
  | .insert .. => false
  | .plain _ | .update _ | .aggregate .. => true

/-- A builder with other filters. -/
def withFilters (b : Builder) (ds : List Criterion) : Builder :=
  { b with statements := b.statements.withFilters ds }

theorem query_persists (hR : Persists R)
    (h : Alike (OnSql R) (Criterion.render b.config.toTablePrefix b.statements.filters)
      (Criterion.render b.config.toTablePrefix ds)) {r : Request} (hr : r.filtered = true) :
    Alike (Query.OnSql R) (b.query r) ((b.withFilters ds).query r) := by
  cases herror : b.error with
  | some e =>
    have herror' : (b.withFilters ds).error = some e := herror
    rw [query_of_error herror, query_of_error herror']
    exact rfl
  | none =>
    have herror' : (b.withFilters ds).error = none := herror
    rw [query, query, checked_of_none herror, checked_of_none herror']
    cases r with
    | insert => cases hr
    | aggregate fn field => exact Statements.aggregate_persists hR h fn field
    | update row =>
      refine AlikeBy.bind_same Eq.refl fun target => AlikeBy.bind_same Eq.refl fun _ =>
        (Statements.restriction_persists hR h).bind fun f g hfg => ?_
      exact hR.append_left _ hfg
    | plain kind => cases kind with
      | select => exact Statements.select_persists hR h
      | delete =>
        refine AlikeBy.bind_same Eq.refl fun target =>
          (Statements.restriction_persists hR h).bind fun f g hfg => ?_
        exact hR.append_left _ hfg
      | _ => exact rfl

theorem applyAll_withFilters (b : Builder) (ds : List Criterion) (calls : List Call) :
    (b.withFilters ds).applyAll calls = (b.applyAll calls).withFilters
      (ds ++ (accepted (calls.flatMap Call.statements)).filterMap Statement.filter?) := by
  rw [applyAll_eq_record, applyAll_eq_record]
  simp only [withFilters, Statements.pushAll_withFilters]

end Builder

end Around

/-! ## Conditions that differ in an operator -/

/-- A condition with `d` in the place of `c`, which is the condition itself or
stands in a group of it, however deep. -/
inductive Condition.Swapped (c d : Condition) : Condition → Condition → Prop
  | self : Swapped c d c d
  | group {e e' : Condition} (j : Connective) (before after : List Condition) :
      Swapped c d e e' →
      Swapped c d (.group j (before ++ e :: after)) (.group j (before ++ e' :: after))

namespace Condition

variable {k : Clause}

theorem criteria_append (cs ds : List Condition) :
    criteria k (cs ++ ds) = do return (← criteria k cs) ++ (← criteria k ds) := by
  induction cs with
  | nil => cases h : criteria k ds <;> simp [criteria, h, bind, Except.bind, pure, Except.pure]
  | cons c cs ih =>
    simp only [List.cons_append, criteria, ih, bind_assoc, pure_bind, List.append_assoc]

theorem Swapped.clause {c d e e' : Condition} (h : Swapped c d e e') (hc : c.clause k = k)
    (hd : d.clause k = k) : e.clause k = k ∧ e'.clause k = k := by
  cases h with
  | self => exact ⟨hc, hd⟩
  | group => exact ⟨rfl, rfl⟩

/-- Conditions that differ in one condition are built alike into criteria that
differ in its criterion. -/
theorem Swapped.criterion? {c d e e' : Condition} {x y : Criterion} (h : Swapped c d e e')
    (hc : c.criterion? k = .ok (some x)) (hd : d.criterion? k = .ok (some y)) :
    Alike (fun r s => ∃ z w, r = some z ∧ s = some w ∧ Criterion.Swapped x y z w)
      (e.criterion? k) (e'.criterion? k) := by
  induction h with
  | self =>
    rw [hc, hd]
    exact ⟨x, y, rfl, rfl, .self⟩
  | group j before after _ ih =>
    simp only [Condition.criterion?, criteria_append, criteria, bind_assoc, pure_bind]
    refine AlikeBy.bind_same Eq.refl fun as => ih.bind fun r s hrs => AlikeBy.bind_same Eq.refl fun bs => ?_
    obtain ⟨z, w, rfl, rfl, hswapped⟩ := hrs
    exact ⟨_, _, rfl, rfl, .group j k [] as bs hswapped⟩

end Condition

namespace Builder

variable {R : Text → Text → Prop}

/-- A condition for WHERE is a filter more, or the error of it is kept. -/
theorem apply_filter (b : Builder) {e : Condition} (he : e.clause .filter = .filter) :
    b.apply (.filter e) = match e.criterion? .filter with
      | .ok r => b.withFilters (b.statements.filters ++ r.toList)
      | .error err => { b with error := b.error.or (some err) } := by
  rcases Call.ofCondition_spec (k := .filter) (c := e) with ⟨err, hr, hs⟩ | ⟨r, hr, hs⟩
  · rw [apply_eq, Call.statements, hs, hr]
    rfl
  · rw [apply_eq, Call.statements, hs, hr]
    cases r with
    | none => simp [withFilters, Statements.withFilters, Statements.pushAll]
    | some z =>
      have hz : z.statement = .ok (.filter z) := by
        rw [Criterion.statement, Condition.criterion?_clause hr z rfl, he]
      simp [hz, withFilters, Statements.withFilters, Statements.pushAll, Statements.push]

/-- Two conditions for WHERE that are built alike make alike queries, each between
the same calls. -/
theorem query_paired (hR : Persists R) {b : Builder} {e e' : Condition} {r : Request}
    (hr : r.filtered = true) (hclause : e.clause .filter = .filter ∧ e'.clause .filter = .filter)
    (h : Alike (fun o o' => ∃ z w, o = some z ∧ o' = some w ∧
        Alike (Paired R) (z.predicate? b.config.toTablePrefix) (w.predicate? b.config.toTablePrefix))
      (e.criterion? .filter) (e'.criterion? .filter)) (calls : List Call) :
    Alike (Query.OnSql R) (((b.apply (.filter e)).applyAll calls).query r)
      (((b.apply (.filter e')).applyAll calls).query r) := by
  rw [apply_filter b hclause.1, apply_filter b hclause.2]
  cases hx : e.criterion? .filter with
  | error err =>
    rw [hx] at h
    rw [h.error_iff.mp rfl]
    obtain ⟨err', herr⟩ : ∃ err', (applyAll { b with error := b.error.or (some err) } calls).error =
        some err' := by
      rw [applyAll_eq_record]
      cases b.error <;> exact ⟨_, rfl⟩
    dsimp only
    rw [query_of_error herr]
    exact rfl
  | ok o =>
    obtain ⟨o', hx', z, w, rfl, rfl, hzw⟩ := h.of_ok hx
    rw [hx']
    dsimp only [Option.toList]
    rw [applyAll_withFilters, applyAll_withFilters, List.append_assoc, List.append_assoc]
    let rest := (accepted (calls.flatMap Call.statements)).filterMap Statement.filter?
    let b' := (b.applyAll calls).withFilters (b.statements.filters ++ ([z] ++ rest))
    have hconfig : b'.config = b.config := config_applyAll b calls
    refine query_persists hR (b := b') ?_ hr
    rw [hconfig]
    exact Criterion.render_paired hR hzw b.statements.filters rest

end Builder

/-! ## Columns and groups -/

/-- How a text changes with the operator behind a field in it: in the operator if
the field is a column, and not at all if it is a group. -/
def Field.Follows (op op' : Text) : Field → Text → Text → Prop
  | .column _ => Differ op op'
  | .group _ => Eq

theorem Field.persists_follows {op op' : Text} (hop : blank op = false) (hop' : blank op' = false)
    (field : Field) : Persists (field.Follows (trim op) (trim op')) := by
  cases field with
  | column => exact Text.persists_differ (solid_trim hop) (solid_trim hop')
  | group => exact Text.persists_eq

namespace Criterion

/-- The condition of a field and an operator that is not blank, without an operand. -/
def unary (field : Field) (op : Text) (j : Connective) (k : Clause) : Criterion :=
  match field with
  | .column c => .leaf j k (.unary c op)
  | .group inner => .group j k op inner

theorem make_unary (field : Field) {op : Text} (hop : blank op = false) (j : Connective) (k : Clause) :
    make field op none j k = .ok (unary field (trim op) j k) := by
  cases field with
  | group => rfl
  | column c =>
    have hne : (trim op).isEmpty = false := List.isEmpty_eq_false_iff.mpr (solid_trim hop).1
    simp [make, hne, testOf, unary]

theorem predicate?_unary_column (c : Column) (op : Text) (j : Connective) (k : Clause) :
    (unary (.column c) op j k).predicate? p = .ok (some ⟨j, ofText (c.text p ++ " " ++ op)⟩) := rfl

theorem unary_paired (field : Field) {op op' : Text} (j : Connective) (k : Clause) :
    Alike (Paired (field.Follows op op')) ((unary field op j k).predicate? p)
      ((unary field op' j k).predicate? p) := by
  cases field with
  | column c =>
    rw [predicate?_unary_column, predicate?_unary_column]
    exact .some ⟨rfl, c.text p ++ " ", [], by simp, by simp⟩
  | group inner =>
    simp only [unary, predicate?_group]
    exact AlikeBy.bind_same Eq.refl fun f => paired_eq_refl _

/-- Behind a column every operator is the end of the condition; what a group is
written as ends with none. -/
theorem suffix_unary_iff (field : Field) (j : Connective) (k : Clause) :
    (∀ op, blank op = false → ∀ q, (unary field (trim op) j k).predicate? p = .ok (some q) →
        trim op <:+ q.fragment.sql) ↔
      ∀ inner f, field = .group inner → render p inner = .ok f → f.sql = [] := by
  cases field with
  | column c =>
    refine iff_of_true (fun op _ q hq => ?_) (fun inner f h => nomatch h)
    rw [predicate?_unary_column, Except.ok.injEq, Option.some.injEq] at hq
    subst hq
    exact List.suffix_append (c.text p ++ " ".toList) (trim op)
  | group inner =>
    have hpredicate : ∀ op q, (unary (.group inner) op j k).predicate? p = .ok (some q) ↔
        ∃ f, render p inner = .ok f ∧ f.sql ≠ [] ∧ q = ⟨j, ofText "(" ++ f ++ ofText ")"⟩ := by
      intro op q
      simp only [unary, predicate?_group_eq_ok, groupPredicate]
      constructor
      · rintro ⟨f, hf, hq⟩
        split at hq
        · cases hq
        next hne => exact ⟨f, hf, by simpa using hne, (Option.some.inj hq).symm⟩
      · rintro ⟨f, hf, hne, rfl⟩
        exact ⟨f, hf, by rw [if_neg (by simpa using hne)]; rfl⟩
    constructor
    · rintro hsuffix _ f ⟨⟩ hf
      by_contra hne
      -- the parenthesis is no end of the words IS NULL
      obtain ⟨a, ha⟩ := hsuffix "IS NULL" rfl _ ((hpredicate _ _).mpr ⟨f, hf, hne, rfl⟩)
      have hlast := congrArg List.getLast? ha
      rw [show trim "IS NULL" = "IS NULL".toList from rfl] at hlast
      simp [List.getLast?_cons] at hlast
    · intro hnil op _ q hq
      obtain ⟨f, hf, hne, -⟩ := (hpredicate _ _).mp hq
      exact absurd (hnil inner f rfl hf) hne

end Criterion

namespace Builder

/-- **An operator without an operand is written behind every column, and behind
no group.** A field and an operator that is not blank are always accepted. All
operators are the ends of what their conditions are written as, exactly if the
field is no group that is written. Put a condition on the field into any list of
conditions, however deep in groups, and change its operator: the list fails with
the same error or is written with the other operator in that one place, if the
field is a column, and with no change at all, if it is a group. So queries that
differ in IS NULL and IS NOT NULL have different texts if and only if the field
is a column. -/
theorem operators_kept (field : Field) (j : Connective) :
    (∀ p k, (∀ op, blank op = false → ∃ c, Criterion.make field op none j k = .ok c ∧
          ∀ q, c.predicate? p = .ok (some q) → trim op <:+ q.fragment.sql) ↔
        ∀ inner f, field = .group inner → Criterion.render p inner = .ok f → f.sql = []) ∧
    (∀ p k op op', blank op = false → blank op' = false → ∃ c c',
        Criterion.make field op none j k = .ok c ∧ Criterion.make field op' none j k = .ok c' ∧
        ∀ e e', Criterion.Swapped c c' e e' → ∀ before after,
          Alike (OnSql (field.Follows (trim op) (trim op')))
            (Criterion.render p (before ++ e :: after)) (Criterion.render p (before ++ e' :: after))) ∧
    ∀ (b : Builder) e e' calls, Condition.Swapped (.isNull j field) (.isNotNull j field) e e' →
      ∀ r : Request, r.filtered = true →
        Alike (fun q q' : Query => q.sql = q'.sql ↔ ∃ inner, field = .group inner)
          (((b.apply (.filter e)).applyAll calls).query r)
          (((b.apply (.filter e')).applyAll calls).query r) := by
  refine ⟨fun p k => ?_, fun p k op op' hop hop' => ?_, fun b e e' calls hswapped r hr => ?_⟩
  · rw [← Criterion.suffix_unary_iff field j k]
    refine forall₂_congr fun op hop => ?_
    simp [Criterion.make_unary field hop]
  · refine ⟨_, _, Criterion.make_unary field hop j k, Criterion.make_unary field hop' j k, ?_⟩
    intro e e' hswapped before after
    have hR := field.persists_follows hop hop'
    exact Criterion.render_paired hR (hswapped.paired hR (Criterion.unary_paired field j k)) before after
  · have hop : blank "IS NULL" = false := rfl
    have hop' : blank "IS NOT NULL" = false := rfl
    have hR : Persists (field.Follows "IS NULL" "IS NOT NULL") := field.persists_follows hop hop'
    have hnull : (Condition.isNull j field).criterion? .filter =
        .ok (some (.unary field "IS NULL" j .filter)) := by
      rw [Condition.isNull, Condition.criterion?, Criterion.make_unary field rfl]
      rfl
    have hnotNull : (Condition.isNotNull j field).criterion? .filter =
        .ok (some (.unary field "IS NOT NULL" j .filter)) := by
      rw [Condition.isNotNull, Condition.criterion?, Criterion.make_unary field rfl]
      rfl
    have hbuilt := hswapped.criterion? hnull hnotNull
    refine (query_paired hR hr (hswapped.clause rfl rfl) (hbuilt.mono ?_) calls).mono fun q q' _ hqq' => ?_
    · rintro o o' - ⟨z, w, ho, ho', hzw⟩
      exact ⟨z, w, ho, ho', hzw.paired hR (Criterion.unary_paired field j .filter)⟩
    replace hqq' : field.Follows "IS NULL" "IS NOT NULL" q.sql q'.sql := hqq'
    cases field with
    | column c => exact iff_of_false (Differ.ne (by decide) hqq') (fun ⟨inner, h⟩ => nomatch h)
    | group inner => exact iff_of_true hqq' ⟨inner, rfl⟩

theorem operators_kept_sample :
    let field : Field := .column (.name "gone")
    let inner (c : Condition) : Condition := .group .orNot [.absent, c, .literal .or (ofText "b")]
    let b : Builder := applyAll {} [.tables [(.column (.name "users"), none)], .limit 3]
    let calls : List Call := [.filter (.isNotNull .or (.column (.name "a")))]
    (∃ c q, Criterion.make field " IS TRUE" none .and .filter = .ok c ∧
      c.predicate? {} = .ok (some q) ∧ "IS TRUE".toList <:+ q.fragment.sql) ∧
    (∃ c c' f g, Criterion.make field " IS TRUE" none .and .having = .ok c ∧
      Criterion.make field "IS FALSE " none .and .having = .ok c' ∧
      Criterion.render {} [.nested [c] .or .having] = .ok f ∧
      Criterion.render {} [.nested [c'] .or .having] = .ok g ∧
      Differ "IS TRUE" "IS FALSE" f.sql g.sql) ∧
    Condition.Swapped (.isNull .and field) (.isNotNull .and field) (inner (.isNull .and field))
      (inner (.isNotNull .and field)) ∧
    Request.select.filtered = true ∧
    ∃ q q', ((b.apply (.filter (inner (.isNull .and field)))).applyAll calls).query .select = .ok q ∧
      ((b.apply (.filter (inner (.isNotNull .and field)))).applyAll calls).query .select = .ok q' ∧
      q.sql ≠ q'.sql ∧
      q.sql = "SELECT * FROM users WHERE NOT (gone IS NULL OR b) OR a IS NOT NULL LIMIT 3".toList := by
  intro field inner b calls
  obtain ⟨hsuffix, hdiffer, hquery⟩ := operators_kept field .and
  obtain ⟨c, hc, hends⟩ := (hsuffix {} .filter).mpr (fun _ _ h => nomatch h) " IS TRUE" rfl
  obtain ⟨s, hs⟩ : ∃ s, c.predicate? {} = .ok (some s) := by
    cases hc
    exact ⟨_, rfl⟩
  obtain ⟨d, d', hd, hd', hlists⟩ := hdiffer {} .having " IS TRUE" "IS FALSE " rfl rfl
  obtain ⟨f, hf⟩ : ∃ f, Criterion.render {} [.nested [d] .or .having] = .ok f := by
    cases hd
    exact ⟨_, rfl⟩
  obtain ⟨g, hg, hfg⟩ := (hlists _ _ (.group .or .having [] [] [] .self) [] []).of_ok hf
  have hswapped : Condition.Swapped (.isNull .and field) (.isNotNull .and field)
      (inner (.isNull .and field)) (inner (.isNotNull .and field)) :=
    .group .orNot [.absent] [.literal .or (ofText "b")] .self
  have hsql : (((b.apply (.filter (inner (.isNull .and field)))).applyAll calls).query .select).map
      Query.sql =
        .ok "SELECT * FROM users WHERE NOT (gone IS NULL OR b) OR a IS NOT NULL LIMIT 3".toList := by
    decide +kernel
  obtain ⟨q, hq⟩ : ∃ q, ((b.apply (.filter (inner (.isNull .and field)))).applyAll calls).query
      .select = .ok q := ⟨_, rfl⟩
  obtain ⟨q', hq', hiff⟩ := (hquery b _ _ calls hswapped .select rfl).of_ok hq
  refine ⟨⟨c, s, hc, hs, hends s hs⟩, ⟨d, d', f, g, hd, hd', hf, hg, hfg⟩, hswapped, rfl,
    q, q', hq, hq', fun h => ?_, Except.ok.inj (hq ▸ hsql)⟩
  obtain ⟨_, hgroup⟩ := hiff.mp h
  exact absurd hgroup (by simp [field])

/-- Behind a group both operators are left out, so that a query for the rows
where it is NULL is one for the rows where it is not. -/
theorem isNull_of_group_lost :
    let field : Field := .group [.leaf .and .filter (.compare (.name "a") "=" (.plain (.int 1)))]
    let calls (c : Condition) : List Call := [.tables [(.column (.name "t"), none)], .filter c]
    (∃ c q, Criterion.make field "IS NULL" none .and .filter = .ok c ∧
      c.predicate? {} = .ok (some q) ∧ ¬ "IS NULL".toList <:+ q.fragment.sql) ∧
    ∃ q q', (applyAll {} (calls (.isNull .and field))).query .select = .ok q ∧
      (applyAll {} (calls (.isNotNull .and field))).query .select = .ok q' ∧
      q.sql = "SELECT * FROM t WHERE (a = %d)".toList ∧ q'.sql = q.sql :=
  ⟨⟨_, _, rfl, rfl, by decide⟩, _, _, rfl, rfl, rfl, rfl⟩

end Builder

end BoundSql
